import HouseStyle.Proofs.Profile.Bounds

/-!
# Overviews keep to their bounds

The consistency of a comparison lies in the unit interval.  For the spread of measures it is cut off
there.  The consistency of numbers is not cut off above: it is one less a relative deviation, which
is not negative if it has a value, and without a value it is 0.
-/

namespace HouseStyle

variable {α : Type} [Scalar α]

/-! ### Comparisons -/

/-- A comparison whose numbers are finite and lie in their ranges. -/
structure Comparison.Sound (c : Comparison α) : Prop where
  finite : c.Storable
  inRange : Scalar.within 0.0 1.0 c.consistency = true

namespace Comparison

open LawfulScalar Scalar

variable [LawfulScalar α]

/-- One less a deviation relative to the size of a mean that is not 0, cut off below. -/
lemma finiteWithin_deviation (variance : α) {mean : α} (hmean : same mean 0.0 = false) :
    FiniteWithin 0.0 1.0 (larger (1.0 - sqrt variance / abs mean) 0.0) := by
  have hzero : isNaN (0.0 : α) = false := isNaN_of_isFinite (finiteWithin_zero (α := α)).isFinite
  rw [larger]
  split
  · exact finiteWithin_zero
  next hvalue =>
    rw [Bool.not_eq_true] at hvalue
    rw [hzero, if_neg Bool.false_ne_true]
    split
    · exact finiteWithin_zero
    next hlt =>
      rw [Bool.not_eq_true] at hlt
      -- the difference has a value, so all of its parts have one
      have hquotient := isNaN_of_sub hvalue
      obtain ⟨hsqrt, habs⟩ := isNaN_of_div hquotient
      have hnonneg : le 0.0 (sqrt variance / abs mean) = true :=
        div_nonneg hquotient (sqrt_nonneg hsqrt) (abs_pos habs hmean)
      exact finiteWithin_of_le finiteWithin_zero.isFinite finiteWithin_one.isFinite
        (le_of_not_lt hvalue hzero hlt) (one_sub_le hnonneg)

lemma finiteWithin_numeric (xs : List α) : FiniteWithin 0.0 1.0 (numeric xs) := by
  unfold numeric
  dsimp only
  split_ifs with hempty hmean hall
  · exact finiteWithin_one
  · exact finiteWithin_one
  · exact finiteWithin_zero
  · exact finiteWithin_deviation _ (by simpa using hmean)

lemma finiteWithin_ofValues (values : List (ConventionValue α)) :
    FiniteWithin 0.0 1.0 (ofValues values) := by
  unfold ofValues
  split
  · exact finiteWithin_one
  · split
    · exact finiteWithin_numeric _
    · split_ifs
      · exact finiteWithin_one
      · exact finiteWithin_zero
      · exact finiteWithin_half

omit [LawfulScalar α] in
lemma isFinite_foldl {f : α → α → α} (hf : ∀ {x y : α}, isFinite x = true → isFinite y = true →
    isFinite (f x y) = true) {xs : List α} (hxs : ∀ x ∈ xs, isFinite x = true) {x : α}
    (hx : isFinite x = true) : isFinite (xs.foldl f x) = true := by
  induction xs generalizing x with
  | nil => exact hx
  | cons y xs ih =>
    rw [List.forall_mem_cons] at hxs
    exact ih hxs.2 (hf hx hxs.1)

lemma finiteWithin_spread {xs : List α} (hxs : ∀ x ∈ xs, isFinite x = true) :
    FiniteWithin 0.0 1.0 (spread xs) := by
  cases xs with
  | nil => exact finiteWithin_one
  | cons x xs =>
    rw [List.forall_mem_cons] at hxs
    have hhigh : isFinite (xs.foldl larger x) = true := isFinite_foldl isFinite_larger hxs.2 hxs.1
    have hlow : isFinite (xs.foldl smaller x) = true := isFinite_foldl isFinite_smaller hxs.2 hxs.1
    simp only [spread, greatest?, least?]
    split
    · exact finiteWithin_one
    next hle =>
      rw [Bool.not_eq_true] at hle
      -- the greatest number is positive, so it is possible to divide by it
      have hpos := lt_of_not_le (isNaN_of_isFinite hhigh)
        (isNaN_of_isFinite (finiteWithin_zero (α := α)).isFinite) hle
      have hquotient := isNaN_div (isNaN_sub hhigh (isNaN_of_isFinite hlow)) hhigh hpos
      exact finiteWithin_clamp finiteWithin_zero finiteWithin_one
        (isNaN_sub finiteWithin_one.isFinite hquotient)

/-! The values that are compared are those of conventions and measures. -/

omit [LawfulScalar α] in
lemma storable_enter {language : String} {index : ConventionIndex α}
    {conventions : List (Convention α)}
    (hindex : ∀ e ∈ index.entries, ∀ v ∈ e.2.entries, v.2.Storable)
    (h : ∀ c ∈ conventions, c.Finite) :
    ∀ e ∈ (enter language index conventions).entries, ∀ v ∈ e.2.entries, v.2.Storable := by
  suffices hfold : ∀ (conventions : List (Convention α)) (index : ConventionIndex α),
      (∀ e ∈ index.entries, ∀ v ∈ e.2.entries, v.2.Storable) → (∀ c ∈ conventions, c.Finite) →
        ∀ e ∈ (conventions.foldl (fun acc c => acc.upsert c.name fun old =>
          (old.getD .empty).insert language c.value) index).entries,
          ∀ v ∈ e.2.entries, v.2.Storable from
    hfold _ index hindex fun c hc => h c (List.mem_filter.1 hc).1
  intro conventions
  induction conventions with
  | nil => exact fun index hindex _ => hindex
  | cons c conventions ih =>
    intro index hindex h
    rw [List.forall_mem_cons] at h
    refine ih _ (SortedMap.forall_upsert hindex (SortedMap.forall_insert ?_ h.1.value)) h.2
    cases hold : SortedMap.get? index c.name with
    | none => exact nofun
    | some old => exact hindex (c.name, old) (SortedMap.mem_entries_iff.2 hold)

omit [LawfulScalar α] in
lemma storable_index {primary : Option (Profile α)} {metrics : SortedMap (LanguageMetrics α)}
    (hprimary : ∀ p, primary = some p → ∀ c ∈ p.conventions, c.Finite)
    (hmetrics : ∀ e ∈ metrics.entries, e.2.Finite) :
    ∀ e ∈ (index primary metrics).entries, ∀ v ∈ e.2.entries, v.2.Storable := by
  suffices hfold : ∀ (languages : List (String × LanguageMetrics α)) (index : ConventionIndex α),
      (∀ e ∈ index.entries, ∀ v ∈ e.2.entries, v.2.Storable) → (∀ e ∈ languages, e.2.Finite) →
        ∀ e ∈ (languages.foldl (fun acc e => enter e.1 acc e.2.conventions) index).entries,
          ∀ v ∈ e.2.entries, v.2.Storable by
    refine hfold metrics.entries _ ?_ hmetrics
    cases primary with
    | none => exact nofun
    | some p => exact storable_enter nofun (hprimary p rfl)
  intro languages
  induction languages with
  | nil => exact fun index hindex _ => hindex
  | cons e languages ih =>
    intro index hindex h
    rw [List.forall_mem_cons] at h
    exact ih _ (storable_enter hindex h.1.conventions) h.2

lemma sound_of_mem_ofIndex {index : ConventionIndex α}
    (hindex : ∀ e ∈ index.entries, ∀ v ∈ e.2.entries, v.2.Storable) {c : Comparison α}
    (h : c ∈ ofIndex index) : c.Sound := by
  obtain ⟨e, he, hc⟩ := List.mem_filterMap.1 h
  unfold ofEntry? at hc
  split at hc
  · cases hc
  · obtain rfl := Option.some.inj hc
    have hconsistency := finiteWithin_ofValues e.2.values
    exact ⟨⟨hindex e he, hconsistency.isFinite⟩, hconsistency.within⟩

variable [NumberText α]

lemma sound_of_mem_derived {metrics : SortedMap (LanguageMetrics α)}
    (hmetrics : ∀ e ∈ metrics.entries, e.2.Finite) {c : Comparison α} (h : c ∈ derived metrics) :
    c.Sound := by
  have hdata : ∀ e ∈ (metrics.filter fun _ m => m.hasData).entries, e.2.Finite :=
    fun e he => hmetrics e (List.mem_filter.1 he).1
  have hmapped : c ∈ measures.map (ofMeasure (metrics.filter fun _ m => m.hasData)) := by
    simp only [derived] at h
    split_ifs at h
    · cases h
    · exact h
  obtain ⟨measure, hmeasure, rfl⟩ := List.mem_map.1 hmapped
  have hvalue : ∀ e ∈ (metrics.filter fun _ m => m.hasData).entries,
      isFinite (measure.value e.2) = true := by
    intro e he
    simp only [measures, List.mem_cons, List.not_mem_nil, or_false] at hmeasure
    rcases hmeasure with rfl | rfl
    · exact (hdata e he).avgComplexity
    · exact (hdata e he).avgFunctionSize
  have hspread : FiniteWithin 0.0 1.0 (ofMeasure (metrics.filter fun _ m => m.hasData)
      measure).consistency := by
    refine finiteWithin_spread fun x hx => ?_
    obtain ⟨m, hm, rfl⟩ := List.mem_map.1 hx
    obtain ⟨e, he, rfl⟩ := List.mem_map.1 hm
    exact hvalue e he
  refine ⟨⟨fun e he => ?_, hspread.isFinite⟩, hspread.within⟩
  obtain ⟨language, hlanguage, rfl⟩ := List.mem_map.1 he
  exact hvalue language hlanguage

end Comparison

/-! ### Overviews -/

/-- An overview whose numbers are finite and whose settings come back from a document with room for
some levels. -/
structure Overview.Finite (room : Nat) (o : Overview α) : Prop where
  primary : ∀ p, o.primary = some p → p.Finite (room - 1)
  metrics : ∀ e ∈ o.metrics.entries, e.2.Finite
  comparisons : ∀ c ∈ o.comparisons, c.Storable
  strictness : Scalar.isFinite o.strictness = true
  rules : ∀ e ∈ o.rules.entries, e.2.Storable (room - 2)
  generatedAt : Scalar.isFinite o.generatedAt = true

/-- An overview whose numbers are finite and lie in their ranges. -/
structure Overview.Sound (room : Nat) (o : Overview α) : Prop where
  finite : o.Finite room
  inRange : o.InRange

namespace Overview

variable {room : Nat} [LawfulScalar α]

lemma storable_rulesFor {primary : Option (Profile α)}
    (hprimary : ∀ p, primary = some p → p.rules.Storable (room + 5)) (language : String)
    (m : LanguageMetrics α) : (rulesFor primary language m).Storable (room + 5) := by
  refine Rules.storable_merge (Rules.storable_merge ?_ (Rules.storable_derive _ _ _))
    (Rules.storable_limits _ _)
  split
  next p =>
    split_ifs
    · exact Rules.storable_merge nofun (hprimary p rfl)
    · exact nofun
  next => exact nofun

/-- An overview keeps to its bounds, as the profile and the measures do from which it is made. -/
lemma sound_integrate [NumberText α] {now : α} {primary : Option (Profile α)}
    {metrics : SortedMap (LanguageMetrics α)} (hnow : InTime now)
    (hprimary : ∀ p, primary = some p → p.Sound (room + 6))
    (hmetrics : ∀ e ∈ metrics.entries, e.2.Sound) :
    (integrate now primary metrics).Sound (room + 7) := by
  have hdata : ∀ e ∈ (metrics.filter fun _ m => m.hasData).entries, e.2.Finite :=
    fun e he => (hmetrics e (List.mem_filter.1 he).1).finite
  have hstrictness : Scalar.FiniteWithin Strictness.leastUnified Strictness.greatest
      (integrate now primary metrics).strictness := Strictness.finiteWithin_clamp (by decide) _
  have hcomparisons : ∀ c ∈ (integrate now primary metrics).comparisons, c.Sound := by
    intro c hc
    rcases List.mem_append.1 hc with hc | hc
    · exact Comparison.sound_of_mem_ofIndex (Comparison.storable_index
        (fun p hp => (hprimary p hp).finite.conventions) hdata) hc
    · exact Comparison.sound_of_mem_derived hdata hc
  have hrules : ∀ e ∈ (integrate now primary metrics).rules.entries, e.2.Storable (room + 5) := by
    intro e he
    obtain ⟨e, -, rfl⟩ := List.mem_map.1 he
    exact storable_rulesFor (fun p hp => (hprimary p hp).finite.rules) _ _
  exact ⟨⟨fun p hp => (hprimary p hp).finite, fun e he => (hmetrics e he).finite,
    fun c hc => (hcomparisons c hc).finite, hstrictness.isFinite, hrules,
    (Bool.and_eq_true_iff.1 hnow).1⟩, hstrictness.within, fun p hp => (hprimary p hp).inRange,
    fun e he => (hmetrics e he).inRange, fun c hc => (hcomparisons c hc).inRange⟩

/-- Adapting the profile of the main language keeps the overview within its bounds. -/
lemma Sound.adaptPrimary {o : Overview α} (h : o.Sound room) (rate : α) (previous : Profile α) :
    (o.adaptPrimary rate previous).Sound room := by
  have hprimary : ∀ p, (o.adaptPrimary rate previous).primary = some p → p.Sound (room - 1) := by
    intro p hp
    obtain ⟨q, hq, rfl⟩ := Option.map_eq_some_iff.1 hp
    exact (Profile.Sound.mk (h.finite.primary q hq) (h.inRange.primary q hq)).adapt rate previous
  exact ⟨⟨fun p hp => (hprimary p hp).finite, h.finite.metrics, h.finite.comparisons,
    h.finite.strictness, h.finite.rules, h.finite.generatedAt⟩, h.inRange.strictness,
    fun p hp => (hprimary p hp).inRange, h.inRange.metrics, h.inRange.comparisons⟩

end Overview

end HouseStyle
