import HouseStyle.Proofs.Overview.Index
import HouseStyle.Proofs.Project.Work

/-!
# One scan for the overview and the profile

An overview takes the profile of the main language from the analysis that it has made of this
language anyway, and learns it from the project only if there is none.  Both ways give the profile
that is learned without an overview: an analysis is there only if the language has files and a
reader that works, and then it is the analysis from which the profile would be learned
(`analyzeMainWith_of_get?`).

The main profile is compared with the other languages, but everything in it is also in the
measures of its language, if there are any.  So it adds nothing to the comparisons.
-/

namespace HouseStyle

namespace ProjectTree

variable {α : Type} [Scalar α] [NumberText α]
variable {r : Readers α} {p : ProjectTree} {s : Settings α}

/-! ### The profile of an overview -/

/-- The analyses are those of what was read of all languages. -/
lemma exists_allWork {analyses : SortedMap (Analysis α)} {layout : Layout}
    (h : p.analyzeAllWith r s = .ok (analyses, layout)) :
    ∃ x work, s.exclusion = .ok x ∧ p.allWork r s = .ok (work, layout) ∧
      analyses = analysesOf s work layout := by
  cases hx : s.exclusion with
  | error fault => simp [analyzeAllWith, allWork_of_error hx, Except.map] at h
  | ok x =>
    rw [analyzeAllWith] at h
    cases hwork : p.allWork r s with
    | error fault => simp [hwork, Except.map] at h
    | ok work =>
      simp only [hwork, Except.map, Except.ok.injEq, Prod.mk.injEq] at h
      obtain ⟨rfl, rfl⟩ := h
      exact ⟨x, work.1, rfl, rfl, rfl⟩

/-- An analysis of the main language that was made for the overview is the one from which the
profile is learned. -/
lemma analyzeMainWith_of_get? {analyses : SortedMap (Analysis α)} {layout : Layout}
    {a : Analysis α} (h : p.analyzeAllWith r s = .ok (analyses, layout))
    (ha : analyses.get? (s.mainLanguage layout) = some a) :
    p.analyzeMainWith r s = .ok (a, layout) := by
  obtain ⟨x, work, hx, hwork, rfl⟩ := exists_allWork h
  obtain ⟨-, w, hw, hname, rfl⟩ := get?_analysesOf ha
  obtain ⟨rfl, hall⟩ := allWork_spec hx hwork
  obtain ⟨-, hcount, hready, hw'⟩ := hall w hw
  rw [analyzeMainWith, mainWork_of_files hx hname hcount hready, ← hw']
  rfl

/-- The overview is made from the analyses of all languages and the profile that is learned from
the project. -/
lemma overviewWith_eq (now : α) :
    p.overviewWith r s now = (p.analyzeAllWith r s).bind fun a =>
      (p.learnWith r s now).map fun q => Overview.integrate now (some q) (metricsOf a.1) := by
  rw [overviewWith]
  cases h : p.analyzeAllWith r s with
  | error fault => rfl
  | ok a =>
    obtain ⟨analyses, layout⟩ := a
    simp only [bind, Except.bind]
    cases ha : analyses.get? (s.mainLanguage layout) with
    | none =>
      cases p.learnWith r s now <;> rfl
    | some a =>
      -- the analysis at hand is the one that learning would make
      rw [learnWith, analyzeMainWith_of_get? h ha]
      rfl

/-- Nothing is learned from a project that cannot be looked at. -/
lemma learnWith_of_error {fault : ProjectFault α} (h : p.analyzeAllWith r s = .error fault)
    (now : α) : p.learnWith r s now = .error fault := by
  cases hx : s.exclusion with
  | error fault' =>
    rw [analyzeAllWith, allWork_of_error hx] at h
    obtain rfl := Except.error.inj h
    rw [learnWith, analyzeMainWith, mainWork_of_error hx]
    rfl
  | ok x =>
    simp [analyzeAllWith, allWork, hx, Except.mapError, bind, Except.bind, Except.map] at h

/-- The time at which a profile is learned is only noted in it. -/
lemma learnWith_now (now now' : α) :
    p.learnWith r s now = (p.learnWith r s now').map fun q => { q with generatedAt := now } := by
  rw [learnWith, learnWith]
  cases p.analyzeMainWith r s <;> rfl

lemma primary_overviewWith (now now' : α) :
    (p.overviewWith r s now).map (·.primary)
      = (p.learnWith r s now').map fun q => some { q with generatedAt := now } := by
  rw [overviewWith_eq]
  cases h : p.analyzeAllWith r s with
  | error fault =>
    rw [learnWith_of_error h now']
    rfl
  | ok a =>
    rw [learnWith_now now now']
    cases p.learnWith r s now' <;> rfl

/-! ### What the main profile adds to the comparisons -/

/-- The language that is analyzed by itself is the main language of the overview. -/
lemma language_of_analyzeMainWith {analyses : SortedMap (Analysis α)} {layout layout' : Layout}
    {a : Analysis α} (h : p.analyzeAllWith r s = .ok (analyses, layout))
    (ha : p.analyzeMainWith r s = .ok (a, layout')) :
    a.language = s.mainLanguage layout ∧ a.language ≠ "" := by
  obtain ⟨x, work, hx, hwork, -⟩ := exists_allWork h
  obtain ⟨rfl, -⟩ := allWork_spec hx hwork
  rw [analyzeMainWith] at ha
  cases hmain : p.mainWork r s with
  | error fault => simp [hmain, Except.map] at ha
  | ok main =>
    obtain ⟨w, layout⟩ := main
    obtain ⟨rfl, hlanguage, -⟩ := mainWork_spec hx hmain
    simp only [hmain, Except.map, Except.ok.injEq, Prod.mk.injEq] at ha
    obtain ⟨rfl, -⟩ := ha
    exact ⟨hlanguage, Language.id_ne_empty w.language⟩

/-- The main profile adds nothing to the comparisons if its language has measures. -/
lemma comparisons_overviewWith {now : α} {o : Overview α} {q : Profile α}
    (h : p.overviewWith r s now = .ok o) (hq : o.primary = some q)
    (hmetrics : o.metrics.contains q.language = true) :
    o.comparisons = (Overview.integrate now none o.metrics).comparisons := by
  rw [overviewWith_eq] at h
  cases hall : p.analyzeAllWith r s with
  | error fault => simp [hall, Except.bind] at h
  | ok found =>
    obtain ⟨analyses, layout⟩ := found
    cases hmain : p.analyzeMainWith r s with
    | error fault => simp [hall, learnWith, hmain, Except.bind, Except.map] at h
    | ok main =>
      obtain ⟨a, layout'⟩ := main
      simp only [hall, learnWith, hmain, Except.bind, Except.map, Except.ok.injEq] at h
      subst h
      obtain rfl : Profile.learn s.leastConfidence now a layout' = q := by
        simpa [Overview.integrate] using hq
      obtain ⟨hlanguage, hne⟩ := language_of_analyzeMainWith hall hmain
      -- the measures of the main language come from the analysis that the profile comes from
      have hget : analyses.get? a.language = some a := by
        have hcontains : (metricsOf analyses).contains a.language = true := hmetrics
        rw [SortedMap.contains_eq, metricsOf, SortedMap.get?_map, Option.isSome_map] at hcontains
        obtain ⟨a', ha'⟩ := Option.isSome_iff_exists.1 hcontains
        have hmain' := analyzeMainWith_of_get? hall (hlanguage ▸ ha')
        rw [hmain] at hmain'
        rw [ha', ← (Prod.mk.inj (Except.ok.inj hmain')).1]
      have hkey : Comparison.languageKey (Profile.learn s.leastConfidence now a layout')
          = a.language := if_neg hne
      have hmeasures : ((metricsOf analyses).filter fun _ m => m.hasData).get? a.language
          = some a.metrics.withoutLayout := by
        rw [SortedMap.get?_filter, metricsOf, SortedMap.get?_map, hget, Option.map_some,
          Option.filter_some]
        obtain ⟨x, work, -, -, rfl⟩ := exists_allWork hall
        exact if_pos (get?_analysesOf hget).1
      have hindex := Comparison.index_eq_of_subset (hkey ▸ hmeasures) (by
        intro c hc hkind
        have hc := (List.mem_filter.1 hc).1
        exact List.mem_filter.2 ⟨hc, by simpa using hkind⟩)
      simp only [Overview.integrate]
      rw [hindex]

end ProjectTree

/-- An overview fails if and only if learning from the same project fails, and with the same fault.
Otherwise its main profile is the learned one but for the time, and where the main language has
measures, the comparisons are those of the measures alone. -/
theorem overview_eq_learn {α : Type} [Scalar α] [NumberText α] (r : Readers α) (d : Disk)
    (root : Path) (s : Settings α) (now now' : α) :
    (((d.project root).bind fun p => p.overviewWith r s now).map (·.primary)
      = ((d.project root).bind fun p => p.learnWith r s now').map fun q =>
          some { q with generatedAt := now }) ∧
    ∀ o q, ((d.project root).bind fun p => p.overviewWith r s now) = .ok o → o.primary = some q →
      o.metrics.contains q.language = true →
        o.comparisons = (Overview.integrate now none o.metrics).comparisons := by
  cases d.project root with
  | error fault => exact ⟨rfl, fun o q h => by simp [Except.bind] at h⟩
  | ok p => exact ⟨ProjectTree.primary_overviewWith now now', fun o q h hq hmetrics =>
      ProjectTree.comparisons_overviewWith h hq hmetrics⟩

end HouseStyle
