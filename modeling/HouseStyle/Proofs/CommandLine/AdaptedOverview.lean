import HouseStyle.CommandLine.Run
import HouseStyle.Proofs.Project.SharedScan

/-!
# Adapting after the comparison

An order to compare all languages adapts the main profile when the overview is already made.  What
an overview takes from its main profile are the language, the maturity, the conventions and the
rules (`Profile.Alike`), and adapting changes none of these.  So the overview is the one that would
be made from the adapted profile, and the profile in it is the one that an order to learn makes.
-/

namespace HouseStyle

variable {α : Type}

/-- Whether two profiles agree in all that an overview takes from them. -/
structure Profile.Alike (p q : Profile α) : Prop where
  language : p.language = q.language
  maturity : p.maturity = q.maturity
  conventions : p.conventions = q.conventions
  rules : p.rules = q.rules

variable [Scalar α]

/-- Adapting a profile moves its strictness only. -/
lemma Profile.alike_adapt (rate : α) (previous p : Profile α) : p.Alike (adapt rate previous p) :=
  ⟨rfl, rfl, rfl, rfl⟩

namespace Profile.Alike

variable {p q : Profile α} (h : p.Alike q)
include h

/-! ### What is made from the main profile -/

omit [Scalar α] in
lemma index_eq (metrics : SortedMap (LanguageMetrics α)) :
    Comparison.index (some p) metrics = Comparison.index (some q) metrics := by
  simp only [Comparison.index, Comparison.languageKey, h.language, h.conventions]

lemma maturityOf_eq (metrics : SortedMap (LanguageMetrics α)) :
    Overview.maturityOf (some p) metrics = Overview.maturityOf (some q) metrics := by
  simp only [Overview.maturityOf, Option.map_some, h.maturity]

lemma rulesFor_eq : Overview.rulesFor (some p) = Overview.rulesFor (some q) := by
  funext language m
  simp only [Overview.rulesFor, h.language, h.rules]

variable [NumberText α]

lemma onProfile_eq : Advice.onProfile p = Advice.onProfile q := by
  simp only [Advice.onProfile, h.language, h.conventions]

lemma advice_eq (metrics : SortedMap (LanguageMetrics α)) (comparisons : List (Comparison α)) :
    Advice.all (some p) metrics comparisons = Advice.all (some q) metrics comparisons := by
  simp only [Advice.all, Option.map_some, h.onProfile_eq]

/-- Overviews with profiles that are alike differ in these profiles only. -/
lemma integrate_eq (now : α) (metrics : SortedMap (LanguageMetrics α)) :
    { Overview.integrate now (some p) metrics with primary := some q }
      = Overview.integrate now (some q) metrics := by
  simp only [Overview.integrate, h.index_eq, h.maturityOf_eq, h.rulesFor_eq, h.advice_eq]

end Profile.Alike

/-! ### The order of the steps -/

variable [NumberText α]

/-- Adapting the main profile of an overview gives the overview of the adapted profile. -/
lemma Overview.adaptPrimary_integrate (rate : α) (previous p : Profile α) (now : α)
    (metrics : SortedMap (LanguageMetrics α)) :
    (integrate now (some p) metrics).adaptPrimary rate previous
      = integrate now (some (Profile.adapt rate previous p)) metrics :=
  (Profile.alike_adapt rate previous p).integrate_eq now metrics

namespace CommandLine.LearnOrder

/-- An overview is made from the profile that the order adapts, if there is one to start from. -/
lemma adapted_integrate (s : Settings α) (previous : Option (Profile α)) (p : Profile α) (now : α)
    (metrics : SortedMap (LanguageMetrics α)) :
    { Overview.integrate now (some p) metrics with primary := some (adapted s previous p) }
      = Overview.integrate now (some (adapted s previous p)) metrics := by
  cases previous with
  | none => rfl
  | some previous => exact (Profile.alike_adapt _ previous p).integrate_eq now metrics

/-- The overview of an order is made from the profile that the order makes. -/
lemma overview_eq_integrate (o : LearnOrder) (s : Settings α) (now : α) (d : Disk) :
    o.overview s now d = (d.project o.root).bind fun p => (p.analyzeAll s).bind fun a =>
      (o.profile s now d).map fun q =>
        Overview.integrate now (some q) (ProjectTree.metricsOf a.1) := by
  rw [overview, profile]
  cases d.project o.root with
  | error fault => rfl
  | ok p =>
    simp only [bind, Except.bind, ProjectTree.overview, ProjectTree.overviewWith_eq,
      ProjectTree.analyzeAll, ProjectTree.learn]
    cases p.analyzeAllWith .sound s with
    | error fault => rfl
    | ok a =>
      cases p.learnWith .sound s now with
      | error fault => rfl
      | ok fresh =>
        cases o.previous? s d with
        | error fault => rfl
        | ok previous => exact congrArg Except.ok (adapted_integrate s previous fresh now _)

end CommandLine.LearnOrder

/-- It makes no difference whether the main profile is adapted before or after the languages are
compared: but for the time, the overview is the same.  So an order to compare all languages gives
the overview of the profile that an order to learn gives, with the same faults. -/
theorem overview_of_adapted :
    (∀ (rate : α) (previous p : Profile α) (now now' : α) (metrics : SortedMap (LanguageMetrics α)),
      { (Overview.integrate now (some p) metrics).adaptPrimary rate previous with
          generatedAt := now' }
        = Overview.integrate now' (some (Profile.adapt rate previous p)) metrics) ∧
    ∀ (o : CommandLine.LearnOrder) (s : Settings α) (now : α) (d : Disk),
      o.overview s now d = (d.project o.root).bind fun p => (p.analyzeAll s).bind fun a =>
        (o.profile s now d).map fun q =>
          Overview.integrate now (some q) (ProjectTree.metricsOf a.1) := by
  refine ⟨fun rate previous p now now' metrics => ?_,
    fun o s now d => o.overview_eq_integrate s now d⟩
  rw [Overview.adaptPrimary_integrate]
  rfl

end HouseStyle
