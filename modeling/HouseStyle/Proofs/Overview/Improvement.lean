import HouseStyle.Proofs.Overview.Comparisons
import HouseStyle.Proofs.Profile.Strictness

/-!
# Improving a language does not hurt

A language is improved if its names and its style become more consistent and its functions simpler
and shorter (`LanguageMetrics.ImprovedTo`).  In exact numbers that lowers neither its score nor the
mean score, and so not the maturity of the project.  The strictness starts from a base for the
maturity and is moved by an amount that grows with the mean consistency of names, so it is not
lowered either.
-/

namespace HouseStyle

open ExactNumber

/-! ### The score of a language -/

namespace LanguageMetrics

/-- Whether measures are at least as good as others in all that counts for the score. -/
structure ImprovedTo {α : Type} [Scalar α] (m m' : LanguageMetrics α) : Prop where
  naming : Scalar.le m.namingConsistency m'.namingConsistency = true
  style : Scalar.le m.styleConsistency m'.styleConsistency = true
  complexity : Scalar.le m'.avgComplexity m.avgComplexity = true
  size : Scalar.le m'.avgFunctionSize m.avgFunctionSize = true

/-- 1 up to a limit, and from there down to 0 by steps of a certain width. -/
noncomputable def decline (limit width x : ℝ) : ℝ :=
  if x ≤ limit then 1 else max (1 - (x - limit) / width) 0

lemma decline_antitone {limit width : ℝ} (hwidth : 0 < width) : Antitone (decline limit width) := by
  intro x y hxy
  rw [decline, decline]
  split_ifs with hy hx hx
  · exact le_rfl
  · exact absurd (hxy.trans hy) hx
  · refine max_le (sub_le_self 1 (div_nonneg ?_ hwidth.le)) zero_le_one
    exact sub_nonneg.2 (not_le.1 hy).le
  · gcongr

variable {exp : ℝ → ℝ}

lemma decline_some {limit width : ℝ} (hwidth : width ≠ 0) (x : ℝ) :
    (if Scalar.le (⟨some x⟩ : ExactNumber exp) ⟨some limit⟩ then 1.0
      else Scalar.larger (1.0 - (⟨some x⟩ - ⟨some limit⟩) / ⟨some width⟩) 0.0)
        = (⟨some (decline limit width x)⟩ : ExactNumber exp) := by
  rw [decline, zero_eq, one_eq, sub_some, div_some hwidth, sub_some, larger_some]
  simp only [le_some]
  split_ifs <;> rfl

lemma complexityGoodness_some (x : ℝ) :
    complexityGoodness (⟨some x⟩ : ExactNumber exp) = ⟨some (decline 5 10 x)⟩ := by
  have hlimit : (Comparison.goodComplexity : ExactNumber exp) = ⟨some 5⟩ := by
    rw [Comparison.goodComplexity, tenths]
    norm_num
  have hwidth : (10.0 : ExactNumber exp) = ⟨some 10⟩ := by
    rw [tenths]
    norm_num
  rw [complexityGoodness, hlimit, hwidth, decline_some (by norm_num)]

lemma sizeGoodness_some (x : ℝ) :
    sizeGoodness (⟨some x⟩ : ExactNumber exp) = ⟨some (decline 20 40 x)⟩ := by
  have hlimit : (Comparison.goodSize : ExactNumber exp) = ⟨some 20⟩ := by
    rw [Comparison.goodSize, tenths]
    norm_num
  have hwidth : (40.0 : ExactNumber exp) = ⟨some 40⟩ := by
    rw [tenths]
    norm_num
  rw [sizeGoodness, hlimit, hwidth, decline_some (by norm_num)]

/-- A language that is improved gets no lower score. -/
lemma ImprovedTo.score {m m' : LanguageMetrics (ExactNumber exp)} (h : m.ImprovedTo m') :
    Scalar.le m.score m'.score = true := by
  obtain ⟨n, n', hn, hn', hnaming⟩ := exists_of_holds h.naming
  obtain ⟨s, s', hs, hs', hstyle⟩ := exists_of_holds h.style
  obtain ⟨c', c, hc', hc, hcomplexity⟩ := exists_of_holds h.complexity
  obtain ⟨z', z, hz', hz, hsize⟩ := exists_of_holds h.size
  have hsimple : decline 5 10 c ≤ decline 5 10 c' := decline_antitone (by norm_num) hcomplexity
  have hshort : decline 20 40 z ≤ decline 20 40 z' := decline_antitone (by norm_num) hsize
  rw [LanguageMetrics.score, LanguageMetrics.score, hn, hn', hs, hs', hc, hc', hz, hz',
    complexityGoodness_some, complexityGoodness_some, sizeGoodness_some, sizeGoodness_some,
    tenths, tenths]
  simp only [mul_some, add_some, le_some]
  gcongr

end LanguageMetrics

/-! ### The maturity of a project -/

/-- A higher class has no lower score. -/
lemma Maturity.score_mono {α : Type} [Scalar α] [OrderedScalar α] {m n : Maturity} (h : m ≤ n) :
    Scalar.le (m.score : α) n.score = true := by
  cases m <;> cases n <;>
    first
    | exact OrderedScalar.le_tenths (by decide) (by decide)
    | exact absurd h (by decide)

namespace Overview

variable {exp : ℝ → ℝ} {primary primary' : Option (Profile (ExactNumber exp))}
  {metrics metrics' : SortedMap (LanguageMetrics (ExactNumber exp))}

/-- The means of what counts for languages that are improved. -/
lemma mean_values_mono {f : LanguageMetrics (ExactNumber exp) → ExactNumber exp}
    (hf : ∀ {m m'}, m.ImprovedTo m' → Scalar.le (f m) (f m') = true)
    (h : List.Forall₂ LanguageMetrics.ImprovedTo metrics.values metrics'.values)
    (hne : metrics.isEmpty = false) :
    Scalar.le (Scalar.mean (metrics.values.map f)) (Scalar.mean (metrics'.values.map f))
      = true := by
  have hvalues : metrics.values.map f ≠ [] := by
    simpa [SortedMap.isEmpty, SortedMap.values] using hne
  refine mean_mono hvalues ?_
  rw [List.forall₂_map_left_iff, List.forall₂_map_right_iff]
  exact h.imp fun _ _ => hf

lemma isEmpty_eq_of_forall₂
    (h : List.Forall₂ LanguageMetrics.ImprovedTo metrics.values metrics'.values) :
    metrics.isEmpty = metrics'.isEmpty := by
  have hlength := h.length_eq
  rw [Bool.eq_iff_iff, SortedMap.isEmpty, SortedMap.isEmpty, List.isEmpty_iff_length_eq_zero,
    List.isEmpty_iff_length_eq_zero]
  simp only [SortedMap.values, List.length_map] at hlength
  rw [hlength]

/-- A project whose languages are improved is no less mature. -/
lemma maturityOf_mono
    (hprimary : Option.Rel (fun p p' => p.maturity ≤ p'.maturity) primary primary')
    (h : List.Forall₂ LanguageMetrics.ImprovedTo metrics.values metrics'.values) :
    maturityOf primary metrics ≤ maturityOf primary' metrics' := by
  have hempty := isEmpty_eq_of_forall₂ h
  have hprofile : List.Forall₂ (fun x y => Scalar.le x y = true)
      (primary.map fun p => (p.maturity.score : ExactNumber exp)).toList
      (primary'.map fun p => p.maturity.score).toList := by
    cases hprimary with
    | none => exact .nil
    | some hle => exact .cons (Maturity.score_mono hle) .nil
  have hlanguages : List.Forall₂ (fun x y => Scalar.le x y = true)
      (if metrics.isEmpty then []
        else [Scalar.mean (metrics.values.map LanguageMetrics.score)])
      (if metrics'.isEmpty then []
        else [Scalar.mean (metrics'.values.map LanguageMetrics.score)]) := by
    rw [← hempty]
    split_ifs with hnone
    · exact .nil
    · exact .cons (mean_values_mono LanguageMetrics.ImprovedTo.score h (by simpa using hnone)) .nil
  have hclass {parts parts' : List (ExactNumber exp)}
      (hparts : List.Forall₂ (fun x y => Scalar.le x y = true) parts parts') :
      (if parts.isEmpty then .beginner else Maturity.ofRatio (Scalar.mean parts))
        ≤ if parts'.isEmpty then .beginner else Maturity.ofRatio (Scalar.mean parts') := by
    cases hparts with
    | nil => exact le_rfl
    | cons hpart hparts => exact Maturity.ofRatio_mono (mean_mono (by simp) (.cons hpart hparts))
  exact hclass (List.rel_append hprofile hlanguages)

/-! ### The strictness of a project -/

/-- The amount by which the mean consistency of names moves the strictness. -/
noncomputable def adjustment (naming : ℝ) : ℝ :=
  if 0.8 ≤ naming then 0.05 else if naming < 0.5 then -0.1 else 0

lemma adjustment_mono : Monotone adjustment := by
  intro x y hxy
  rw [adjustment, adjustment]
  split_ifs <;> linarith

lemma adjustment_le (naming : ℝ) : adjustment naming ≤ 0.05 := by
  rw [adjustment]
  split_ifs <;> norm_num

lemma namingAdjustment_some (base naming : ℝ) :
    namingAdjustment ⟨some base⟩ (⟨some naming⟩ : ExactNumber exp)
      = ⟨some (base + adjustment naming)⟩ := by
  have hhigh : (0.8 : ℝ) = 8 / 10 := by norm_num
  have hlow : (0.5 : ℝ) = 1 / 2 := by norm_num
  rw [namingAdjustment, adjustment, tenths, half_eq, tenths, decimal, add_some, sub_some]
  simp only [le_some, lt_some, Nat.cast_ofNat, hhigh, hlow]
  split_ifs with hhigh hlow
  · norm_num
  · norm_num [sub_eq_add_neg]
  · rw [add_zero]

lemma namingAdjustment_none (base : ExactNumber exp) : namingAdjustment base ⟨none⟩ = base := by
  have hhigh : Scalar.le (0.8 : ExactNumber exp) ⟨none⟩ = false := rfl
  have hlow : Scalar.lt (⟨none⟩ : ExactNumber exp) 0.5 = false := rfl
  rw [namingAdjustment, hhigh, hlow, if_neg Bool.false_ne_true, if_neg Bool.false_ne_true]

/-- The amount by which the strictness is moved for the languages, none if their names have no mean
consistency. -/
noncomputable def moved (metrics : SortedMap (LanguageMetrics (ExactNumber exp))) : ℝ :=
  if metrics.isEmpty then 0
  else (Scalar.mean (metrics.values.map LanguageMetrics.namingConsistency)).value?.elim 0 adjustment

lemma moved_le : moved metrics ≤ 0.05 := by
  rw [moved]
  split_ifs
  · norm_num
  · cases (Scalar.mean (metrics.values.map LanguageMetrics.namingConsistency)).value? with
    | none => norm_num
    | some naming => exact adjustment_le naming

/-- The more consistent the names are, the further up the strictness is moved. -/
lemma moved_mono (h : List.Forall₂ LanguageMetrics.ImprovedTo metrics.values metrics'.values) :
    moved metrics ≤ moved metrics' := by
  rw [moved, moved, ← isEmpty_eq_of_forall₂ h]
  split_ifs with hnone
  · exact le_rfl
  · obtain ⟨x, y, hx, hy, hxy⟩ := exists_of_holds
      (mean_values_mono LanguageMetrics.ImprovedTo.naming h (by simpa using hnone))
    rw [hx, hy]
    exact adjustment_mono hxy

/-- The strictness is that for the maturity, moved for the languages and cut off at its bounds. -/
lemma strictnessOf_eq (m : Maturity) :
    strictnessOf m metrics
      = ⟨some (max (3 / 10) (min (m.baseTenths / 10 + moved metrics) 1))⟩ := by
  have hleast : (Strictness.leastUnified : ExactNumber exp) = ⟨some (3 / 10)⟩ := by
    rw [Strictness.leastUnified, tenths]
    norm_num
  rw [← Strictness.clamp_some (by norm_num), ← hleast, strictnessOf, m.baseStrictness_eq, moved]
  congr 1
  split_ifs
  · rw [add_zero]
  · rcases Scalar.mean (metrics.values.map LanguageMetrics.namingConsistency) with ⟨_ | naming⟩
    · rw [namingAdjustment_none]
      exact congrArg (fun x => (⟨some x⟩ : ExactNumber exp)) (add_zero _).symm
    · exact namingAdjustment_some _ naming

lemma strictnessOf_within (m : Maturity) :
    Scalar.within 0.3 0.85 (strictnessOf m metrics) = true := by
  have hbase : (m.baseTenths : ℝ) ≤ 8 := by cases m <;> norm_num [Maturity.baseTenths]
  have hmoved : moved metrics ≤ 0.05 := moved_le
  rw [strictnessOf_eq, tenths, decimal, Scalar.within, Bool.and_eq_true, le_some, le_some]
  simp only [Nat.cast_ofNat]
  exact ⟨le_max_left _ _, max_le (by norm_num) ((min_le_left _ _).trans (by linarith))⟩

/-- The strictness does not fall where neither the maturity nor the consistency of names does. -/
lemma strictnessOf_mono {m m' : Maturity} (hm : m ≤ m')
    (h : List.Forall₂ LanguageMetrics.ImprovedTo metrics.values metrics'.values) :
    Scalar.le (strictnessOf m metrics) (strictnessOf m' metrics') = true := by
  have hbase : (m.baseTenths : ℝ) / 10 ≤ m'.baseTenths / 10 := by
    rcases eq_or_lt_of_le hm with rfl | hlt
    · exact le_rfl
    · linarith [Maturity.baseTenths_lt hlt]
  have hmoved := moved_mono h
  rw [strictnessOf_eq, strictnessOf_eq, le_some]
  gcongr

/-- Improving does not hurt in exact numbers.  If the same languages have files in two projects and
each of them is improved in the second one, and the profile of its main language, if there is one,
is of no lower maturity, then neither the maturity nor the strictness of the project falls.  The
strictness is at least 0.3 and at most 0.85 for any languages. -/
theorem improvement_never_hurts (exp : ℝ → ℝ) :
    (∀ (now now' : ExactNumber exp) (primary primary' : Option (Profile (ExactNumber exp)))
      (metrics metrics' : SortedMap (LanguageMetrics (ExactNumber exp))),
      Option.Rel (fun p p' => p.maturity ≤ p'.maturity) primary primary' →
      (∀ language, Option.Rel LanguageMetrics.ImprovedTo (Comparison.measuresOf? metrics language)
        (Comparison.measuresOf? metrics' language)) →
        (integrate now primary metrics).maturity ≤ (integrate now' primary' metrics').maturity ∧
        Scalar.le (integrate now primary metrics).strictness
          (integrate now' primary' metrics').strictness = true) ∧
    ∀ (now : ExactNumber exp) (primary : Option (Profile (ExactNumber exp)))
      (metrics : SortedMap (LanguageMetrics (ExactNumber exp))),
      Scalar.within 0.3 0.85 (integrate now primary metrics).strictness = true := by
  refine ⟨fun now now' primary primary' metrics metrics' hprimary hmetrics => ?_,
    fun now primary metrics => strictnessOf_within _⟩
  have hvalues : List.Forall₂ LanguageMetrics.ImprovedTo
      (metrics.filter fun _ m => m.hasData).values
      (metrics'.filter fun _ m => m.hasData).values := by
    refine SortedMap.forall₂_values fun language => ?_
    rw [Comparison.get?_withData, Comparison.get?_withData]
    exact hmetrics language
  have hmaturity := maturityOf_mono hprimary hvalues
  exact ⟨hmaturity, strictnessOf_mono hmaturity hvalues⟩

/-- The measures of a language with some consistency of names and complexity. -/
noncomputable def measuresWith (naming complexity : ExactNumber Real.exp) :
    LanguageMetrics (ExactNumber Real.exp) :=
  { LanguageMetrics.empty "go" with
    fileCount := 1
    avgComplexity := complexity
    namingConsistency := naming }

/-- The only language of a project gets more consistent names and simpler functions. -/
theorem improvement_never_hurts_go :
    let before := integrate 0.0 none (.ofList [("go", measuresWith 0.4 12.0)])
    let after := integrate 0.0 none (.ofList [("go", measuresWith 0.9 3.0)])
    before.maturity ≤ after.maturity ∧ Scalar.le before.strictness after.strictness = true ∧
      Scalar.within 0.3 0.85 after.strictness = true := by
  have himproved : (measuresWith 0.4 12.0).ImprovedTo (measuresWith 0.9 3.0) := by
    constructor <;> norm_num [measuresWith, LanguageMetrics.empty, tenths]
  have hmeasures (m : LanguageMetrics (ExactNumber Real.exp)) (hm : m.hasData = true) (l : String) :
      Comparison.measuresOf? (.ofList [("go", m)]) l = if "go" = l then some m else none := by
    rw [Comparison.measuresOf?, SortedMap.get?_ofList]
    by_cases hl : "go" = l <;> simp [hl, hm]
  have hlanguages (l : String) : Option.Rel LanguageMetrics.ImprovedTo
      (Comparison.measuresOf? (.ofList [("go", measuresWith 0.4 12.0)]) l)
      (Comparison.measuresOf? (.ofList [("go", measuresWith 0.9 3.0)]) l) := by
    rw [hmeasures _ rfl, hmeasures _ rfl]
    split_ifs
    · exact .some himproved
    · exact .none
  obtain ⟨hbetter, hwithin⟩ := improvement_never_hurts Real.exp
  obtain ⟨hmaturity, hstrictness⟩ := hbetter 0.0 0.0 none none _ _ .none hlanguages
  exact ⟨hmaturity, hstrictness, hwithin _ _ _⟩

end Overview

end HouseStyle
