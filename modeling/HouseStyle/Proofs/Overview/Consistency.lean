import HouseStyle.Proofs.Overview.Bounds
import HouseStyle.Proofs.Overview.Comparisons
import HouseStyle.Proofs.Number.Exact
import Mathlib.Algebra.Order.BigOperators.Group.List
import Mathlib.Algebra.BigOperators.Ring.List
import Mathlib.Analysis.SpecialFunctions.Exp

/-!
# Consistency is fair

In exact numbers the consistency of some values lies in the unit interval, depends on the values and
not on their order, and is 1 exactly if they are all equal.  That of numbers is one less their
deviation relative to the mean (`evenness`), so it does not depend on the unit in which they are
given.  That of measures is the least one relative to the greatest one (`spread_some`).
-/

namespace HouseStyle

open ExactNumber

namespace Comparison

/-! ### How even numbers are -/

/-- The mean of some numbers. -/
noncomputable def meanOf (xs : List ℝ) : ℝ := xs.sum / xs.length

/-- The mean square of their distances from the mean. -/
noncomputable def varianceOf (xs : List ℝ) : ℝ :=
  meanOf (xs.map fun x => (x - meanOf xs) * (x - meanOf xs))

/-- One less the deviation relative to the mean, cut off below.  Around 0 only numbers that are all
0 are even. -/
noncomputable def evenness (xs : List ℝ) : ℝ :=
  open Classical in
  if meanOf xs = 0 then if ∀ x ∈ xs, x = 0 then 1 else 0
  else max (1 - √(varianceOf xs) / |meanOf xs|) 0

section Evenness

variable {xs ys : List ℝ}

lemma meanOf_perm (h : xs.Perm ys) : meanOf xs = meanOf ys := by
  rw [meanOf, meanOf, h.sum_eq, h.length_eq]

lemma meanOf_mul (c : ℝ) (f : ℝ → ℝ) (xs : List ℝ) :
    meanOf (xs.map fun x => c * f x) = c * meanOf (xs.map f) := by
  rw [meanOf, meanOf, List.sum_map_mul_left, List.length_map, List.length_map, mul_div_assoc]

lemma meanOf_nonneg (h : ∀ x ∈ xs, 0 ≤ x) : 0 ≤ meanOf xs :=
  div_nonneg (List.sum_nonneg h) (Nat.cast_nonneg _)

/-- Numbers that are not negative have the mean 0 only if they are all 0. -/
lemma meanOf_eq_zero_iff (hne : xs ≠ []) (h : ∀ x ∈ xs, 0 ≤ x) :
    meanOf xs = 0 ↔ ∀ x ∈ xs, x = 0 := by
  have hlength : (xs.length : ℝ) ≠ 0 := Nat.cast_ne_zero.2 (mt List.length_eq_zero_iff.1 hne)
  rw [meanOf, div_eq_zero_iff, or_iff_left hlength]
  exact ⟨fun hsum x hx => List.all_zero_of_le_zero_le_of_sum_eq_zero h hsum hx, List.sum_eq_zero⟩

/-- All numbers are equal if each of them is the mean. -/
lemma forall_eq_meanOf_iff (hne : xs ≠ []) :
    (∀ x ∈ xs, x = meanOf xs) ↔ ∀ x ∈ xs, ∀ y ∈ xs, x = y := by
  constructor
  · intro h x hx y hy
    rw [h x hx, h y hy]
  · intro h x hx
    have hlength : (xs.length : ℝ) ≠ 0 := Nat.cast_ne_zero.2 (mt List.length_eq_zero_iff.1 hne)
    have hsum : xs.sum = xs.length * x := by
      rw [List.eq_replicate_of_mem fun y hy => h y hy x hx, List.sum_replicate, nsmul_eq_mul,
        List.length_replicate]
    rw [meanOf, hsum, mul_div_cancel_left₀ _ hlength]

lemma varianceOf_nonneg (xs : List ℝ) : 0 ≤ varianceOf xs :=
  meanOf_nonneg (List.forall_mem_map.2 fun _ _ => mul_self_nonneg _)

lemma varianceOf_eq_zero_iff (hne : xs ≠ []) :
    varianceOf xs = 0 ↔ ∀ x ∈ xs, x = meanOf xs := by
  rw [varianceOf, meanOf_eq_zero_iff (by simpa using hne)
    (List.forall_mem_map.2 fun _ _ => mul_self_nonneg _), List.forall_mem_map]
  simp only [mul_self_eq_zero, sub_eq_zero]

lemma evenness_perm (h : xs.Perm ys) : evenness xs = evenness ys := by
  have hvariance : varianceOf xs = varianceOf ys := by
    rw [varianceOf, varianceOf, meanOf_perm h]
    exact meanOf_perm (h.map _)
  have hzero : (∀ x ∈ xs, x = 0) ↔ ∀ y ∈ ys, y = 0 := by simp only [h.mem_iff]
  rw [evenness, evenness, meanOf_perm h, hvariance]
  simp only [hzero]

/-- The unit in which numbers are given does not matter. -/
lemma evenness_mul {c : ℝ} (hc : c ≠ 0) (xs : List ℝ) :
    evenness (xs.map (c * ·)) = evenness xs := by
  have hmean : meanOf (xs.map (c * ·)) = c * meanOf xs := by simpa using meanOf_mul c id xs
  have hvariance : varianceOf (xs.map (c * ·)) = c * c * varianceOf xs := by
    rw [varianceOf, varianceOf, hmean, ← meanOf_mul, List.map_map]
    congr 2
    funext x
    simp only [Function.comp_apply]
    ring
  have hsqrt : √(c * c * varianceOf xs) = |c| * √(varianceOf xs) := by
    rw [Real.sqrt_mul (mul_self_nonneg c), Real.sqrt_mul_self_eq_abs]
  rw [evenness, evenness, hmean, hvariance, hsqrt, abs_mul,
    mul_div_mul_left _ _ (abs_ne_zero.2 hc)]
  simp only [mul_eq_zero, hc, false_or, List.forall_mem_map]

/-- Only numbers that are all equal are even. -/
lemma evenness_eq_one_iff (hne : xs ≠ []) :
    evenness xs = 1 ↔ ∀ x ∈ xs, ∀ y ∈ xs, x = y := by
  rw [← forall_eq_meanOf_iff hne, evenness]
  split_ifs with hmean hzero
  · rw [hmean]
    exact iff_of_true rfl hzero
  · rw [hmean]
    exact iff_of_false zero_ne_one hzero
  · have hpos : 0 < |meanOf xs| := abs_pos.2 hmean
    rw [← varianceOf_eq_zero_iff hne, max_eq_iff]
    constructor
    · rintro (⟨hdeviation, -⟩ | ⟨hone, -⟩)
      · rw [sub_eq_self, div_eq_zero_iff, or_iff_left hpos.ne', Real.sqrt_eq_zero'] at hdeviation
        exact le_antisymm hdeviation (varianceOf_nonneg xs)
      · exact absurd hone zero_ne_one
    · intro hvariance
      rw [hvariance, Real.sqrt_zero, zero_div, sub_zero]
      exact Or.inl ⟨rfl, zero_le_one⟩

end Evenness

variable {exp : ℝ → ℝ}

/-- The consistency of numbers is how even they are. -/
lemma numeric_some {xs : List ℝ} (hne : xs ≠ []) :
    numeric (xs.map fun x => (⟨some x⟩ : ExactNumber exp)) = ⟨some (evenness xs)⟩ := by
  have hmean : Scalar.mean (xs.map fun x => (⟨some x⟩ : ExactNumber exp)) = ⟨some (meanOf xs)⟩ :=
    mean_some hne
  have hvariance : Scalar.mean ((xs.map fun x => (⟨some x⟩ : ExactNumber exp)).map
      fun x => (x - ⟨some (meanOf xs)⟩) * (x - ⟨some (meanOf xs)⟩)) = ⟨some (varianceOf xs)⟩ := by
    have hdistances : Scalar.mean ((xs.map fun x => (x - meanOf xs) * (x - meanOf xs)).map
        fun x => (⟨some x⟩ : ExactNumber exp)) = ⟨some (varianceOf xs)⟩ :=
      mean_some (by simpa using hne)
    rw [List.map_map] at hdistances ⊢
    exact hdistances
  have hall : ((xs.map fun x => (⟨some x⟩ : ExactNumber exp)).all fun x => Scalar.same x ⟨some 0⟩)
      = true ↔ ∀ x ∈ xs, x = 0 := by
    simp only [List.all_map, List.all_eq_true, Function.comp_apply, same_some]
  unfold numeric
  dsimp only
  rw [if_neg (by simpa using hne), hmean, zero_eq, one_eq, hvariance, evenness]
  simp only [same_some, hall]
  split_ifs with hzero
  · rfl
  · rfl
  · rw [sqrt_some (varianceOf_nonneg xs), abs_some, div_some (abs_ne_zero.2 hzero), sub_some,
      larger_some]

/-! ### The consistency of values -/

/-- A value that is no number without a value. -/
def Valued (v : ConventionValue (ExactNumber exp)) : Prop :=
  ∀ x, v.number? = some x → Scalar.isNaN x = false

@[simp] lemma valued_number {x : ExactNumber exp} :
    Valued (.number x) ↔ Scalar.isNaN x = false := by
  simp [Valued, ConventionValue.number?]

@[simp] lemma valued_flag (b : Bool) : Valued (.flag b : ConventionValue (ExactNumber exp)) :=
  nofun

lemma same_iff {v w : ConventionValue (ExactNumber exp)} (hv : Valued v) (hw : Valued w) :
    v.same w = true ↔ v = w := by
  cases v <;> cases w
  case number.number x y =>
    obtain ⟨a, rfl⟩ := exists_of_isNaN (valued_number.1 hv)
    obtain ⟨b, rfl⟩ := exists_of_isNaN (valued_number.1 hw)
    simp [ConventionValue.same]
  all_goals simp [ConventionValue.same]

/-- Each value equals the next one exactly if all are equal. -/
lemma allSame_iff {values : List (ConventionValue (ExactNumber exp))} (h : ∀ v ∈ values, Valued v) :
    allSame values = true ↔ ∀ v ∈ values, ∀ w ∈ values, v = w := by
  induction values using allSame.induct with
  | case1 a b rest ih =>
    obtain ⟨ha, hrest⟩ := List.forall_mem_cons.1 h
    rw [allSame, Bool.and_eq_true, ih hrest, same_iff ha (hrest b List.mem_cons_self)]
    constructor
    · rintro ⟨rfl, hsame⟩
      simpa only [List.mem_cons, or_self_left] using hsame
    · intro hsame
      exact ⟨hsame a (by simp) b (by simp), fun v hv w hw =>
        hsame v (List.mem_cons_of_mem _ hv) w (List.mem_cons_of_mem _ hw)⟩
  | case2 values hshort =>
    rw [allSame.eq_2 values hshort, eq_self, true_iff]
    match values with
    | [] => simp
    | [a] => simp
    | a :: b :: rest => exact absurd rfl (hshort a b rest)

/-- The number that a value is, if it is one. -/
def real? (v : ConventionValue (ExactNumber exp)) : Option ℝ := v.number?.bind ExactNumber.value?

lemma mapM_number? (values : List (ConventionValue (ExactNumber exp))) :
    values.mapM ConventionValue.number? = if values.all fun v => v.number?.isSome
      then some (values.filterMap ConventionValue.number?) else none := by
  induction values with
  | nil => rfl
  | cons v values ih =>
    rw [List.mapM_cons, ih, List.all_cons]
    cases hv : v.number? with
    | none => rfl
    | some x =>
      rw [List.filterMap_cons_some hv, Option.isSome_some, Bool.true_and]
      split_ifs <;> rfl

lemma number?_eq {v : ConventionValue (ExactNumber exp)} (hv : Valued v) :
    v.number? = (real? v).map fun x => (⟨some x⟩ : ExactNumber exp) := by
  unfold real?
  cases hnumber : v.number? with
  | none => rfl
  | some x =>
    obtain ⟨a, rfl⟩ := exists_of_isNaN (hv x hnumber)
    rfl

lemma filterMap_number? {values : List (ConventionValue (ExactNumber exp))}
    (h : ∀ v ∈ values, Valued v) :
    values.filterMap ConventionValue.number?
      = (values.filterMap real?).map fun x => (⟨some x⟩ : ExactNumber exp) := by
  rw [List.map_filterMap]
  exact List.filterMap_congr fun v hv => number?_eq (h v hv)

open Classical in
/-- The consistency of at least two values by kind. -/
lemma ofValues_eq {values : List (ConventionValue (ExactNumber exp))} (hlength : 2 ≤ values.length)
    (h : ∀ v ∈ values, Valued v) :
    ofValues values =
      if ∀ v ∈ values, v.number?.isSome = true then ⟨some (evenness (values.filterMap real?))⟩
      else if ∀ v ∈ values, ∀ w ∈ values, v = w then 1.0
      else if ∀ v ∈ values, v.flag?.isSome = true then 0.0 else 0.5 := by
  unfold ofValues
  rw [if_neg (Nat.not_lt.2 hlength), mapM_number?, filterMap_number? h]
  simp only [← allSame_iff h, ← List.all_eq_true]
  by_cases hnumbers : (values.all fun v => v.number?.isSome) = true
  · rw [if_pos hnumbers, if_pos hnumbers]
    refine numeric_some fun hnil => ?_
    obtain ⟨v, hv⟩ := List.exists_mem_of_ne_nil values (by rintro rfl; simp at hlength)
    have hnumber := List.all_eq_true.1 hnumbers v hv
    rw [number?_eq (h v hv), List.filterMap_eq_nil_iff.1 hnil v hv] at hnumber
    cases hnumber
  · rw [if_neg hnumbers, if_neg hnumbers]

open Classical in
/-- The consistency does not depend on the order of the values. -/
lemma ofValues_perm {values values' : List (ConventionValue (ExactNumber exp))}
    (hperm : values.Perm values') (h : ∀ v ∈ values, Valued v) :
    ofValues values = ofValues values' := by
  rcases Nat.lt_or_ge values.length 2 with hlength | hlength
  · rw [ofValues, ofValues, if_pos hlength, if_pos (hperm.length_eq ▸ hlength)]
  · rw [ofValues_eq hlength h, ofValues_eq (hperm.length_eq ▸ hlength)
      fun v hv => h v (hperm.mem_iff.2 hv), evenness_perm (hperm.filterMap real?)]
    simp only [hperm.mem_iff]

/-- The consistency of at least two numbers. -/
lemma ofValues_numbers {xs : List ℝ} (hlength : 2 ≤ xs.length) :
    ofValues (xs.map fun x => .number (⟨some x⟩ : ExactNumber exp)) = ⟨some (evenness xs)⟩ := by
  have hnumbers : ∀ v ∈ xs.map fun x => .number (⟨some x⟩ : ExactNumber exp),
      Valued v ∧ v.number?.isSome = true := by
    rw [List.forall_mem_map]
    exact fun x _ => ⟨valued_number.2 rfl, rfl⟩
  rw [ofValues_eq (by rwa [List.length_map]) fun v hv => (hnumbers v hv).1,
    if_pos fun v hv => (hnumbers v hv).2, List.filterMap_map]
  exact congrArg (fun rs => (⟨some (evenness rs)⟩ : ExactNumber exp)) List.filterMap_some

/-- Numbers do not have to be given in a certain unit. -/
lemma ofValues_mul {c : ExactNumber exp} (hc : Scalar.isNaN c = false)
    (hzero : Scalar.same c 0.0 = false) {xs : List (ExactNumber exp)}
    (h : ∀ x ∈ xs, Scalar.isNaN x = false) :
    ofValues (xs.map fun x => .number (c * x)) = ofValues (xs.map .number) := by
  obtain ⟨a, rfl⟩ := exists_of_isNaN hc
  obtain ⟨rs, rfl⟩ := exists_reals_of_isNaN h
  rw [zero_eq, ← Bool.not_eq_true, same_some] at hzero
  rcases Nat.lt_or_ge rs.length 2 with hlength | hlength
  · rw [ofValues, ofValues, if_pos (by simpa using hlength), if_pos (by simpa using hlength)]
  · rw [List.map_map, List.map_map]
    calc ofValues (rs.map fun r => .number (⟨some a⟩ * ⟨some r⟩))
      _ = ofValues ((rs.map (a * ·)).map fun r => .number (⟨some r⟩ : ExactNumber exp)) := by
        rw [List.map_map]
        rfl
      _ = ⟨some (evenness (rs.map (a * ·)))⟩ := ofValues_numbers (by rwa [List.length_map])
      _ = ⟨some (evenness rs)⟩ := by rw [evenness_mul hzero]
      _ = ofValues (rs.map fun r => .number (⟨some r⟩ : ExactNumber exp)) :=
        (ofValues_numbers hlength).symm

/-- Values are fully consistent only if they are all equal. -/
lemma ofValues_eq_one_iff {values : List (ConventionValue (ExactNumber exp))}
    (hlength : 2 ≤ values.length) (h : ∀ v ∈ values, Valued v) :
    ofValues values = 1.0 ↔ ∀ v ∈ values, ∀ w ∈ values, v = w := by
  by_cases hnumbers : ∀ v ∈ values, v.number?.isSome = true
  · obtain ⟨xs, rfl⟩ : ∃ xs : List (ExactNumber exp), xs.map .number = values :=
      (Set.range_list_map _).ge fun v hv => by
        cases v with
        | number x => exact ⟨x, rfl⟩
        | flag b => cases hnumbers _ hv
        | text s => cases hnumbers _ hv
    obtain ⟨rs, rfl⟩ := exists_reals_of_isNaN fun x hx =>
      valued_number.1 (h _ (List.mem_map_of_mem hx))
    have hne : rs ≠ [] := by
      rintro rfl
      simp at hlength
    rw [List.map_map] at hlength ⊢
    rw [List.length_map] at hlength
    have hvalue : ofValues (rs.map (ConventionValue.number ∘ fun r => (⟨some r⟩ : ExactNumber exp)))
        = ⟨some (evenness rs)⟩ := ofValues_numbers hlength
    rw [hvalue, one_eq, ExactNumber.mk.injEq, Option.some_inj, evenness_eq_one_iff hne]
    simp
  · rw [ofValues_eq hlength h, if_neg hnumbers]
    split_ifs with hsame hflags
    · exact iff_of_true rfl hsame
    · exact iff_of_false (by simp [zero_eq, one_eq]) hsame
    · exact iff_of_false (by norm_num [half_eq, one_eq]) hsame

/-! ### The consistency of measures -/

lemma greatest?_some (rs : List ℝ) :
    greatest? (rs.map fun r => (⟨some r⟩ : ExactNumber exp)) = rs.max?.map fun r => ⟨some r⟩ := by
  cases rs with
  | nil => rfl
  | cons r rs =>
    rw [List.map_cons, greatest?, List.max?_cons', List.foldl_map,
      List.foldl_hom (fun r => (⟨some r⟩ : ExactNumber exp)) fun _ _ => larger_some]
    rfl

lemma least?_some (rs : List ℝ) :
    least? (rs.map fun r => (⟨some r⟩ : ExactNumber exp)) = rs.min?.map fun r => ⟨some r⟩ := by
  cases rs with
  | nil => rfl
  | cons r rs =>
    rw [List.map_cons, least?, List.min?_cons', List.foldl_map,
      List.foldl_hom (fun r => (⟨some r⟩ : ExactNumber exp)) fun _ _ => smaller_some]
    rfl

/-- The consistency of measures is the quotient of their bounds. -/
lemma spread_some {rs : List ℝ} (h : ∀ r ∈ rs, 0 ≤ r) {low high : ℝ} (hlow : rs.min? = some low)
    (hhigh : rs.max? = some high) :
    spread (rs.map fun r => (⟨some r⟩ : ExactNumber exp))
      = ⟨some (if high = 0 then 1 else low / high)⟩ := by
  obtain ⟨hmem, hle⟩ := List.min?_eq_some_iff.1 hlow
  obtain ⟨hmem', hle'⟩ := List.max?_eq_some_iff.1 hhigh
  simp only [spread, greatest?_some, least?_some, hlow, hhigh, Option.map_some, zero_eq, one_eq,
    le_some]
  split_ifs with hneg hzero hzero
  · rfl
  · exact absurd (le_antisymm hneg (h high hmem')) hzero
  · exact absurd hzero.le hneg
  · have hquotient : 1 - (high - low) / high = low / high := by
      field_simp
      ring
    have hunit : low / high ≤ 1 := div_le_one_of_le₀ (hle high hmem') (h high hmem')
    rw [sub_some, div_some hzero, sub_some, clamp_some zero_le_one, hquotient, min_eq_left hunit,
      max_eq_right (div_nonneg (h low hmem) (h high hmem'))]

lemma exists_bounds {rs : List ℝ} (hne : rs ≠ []) :
    ∃ low high, rs.min? = some low ∧ rs.max? = some high := by
  obtain ⟨low, hlow⟩ := Option.isSome_iff_exists.1 (List.isSome_min?_of_ne_nil hne)
  obtain ⟨high, hhigh⟩ := Option.isSome_iff_exists.1 (List.isSome_max?_of_ne_nil hne)
  exact ⟨low, high, hlow, hhigh⟩

lemma exists_measures {xs : List (ExactNumber exp)} (h : ∀ x ∈ xs, Scalar.le 0.0 x = true) :
    ∃ rs : List ℝ, rs.map (fun r => ⟨some r⟩) = xs ∧ ∀ r ∈ rs, 0 ≤ r := by
  refine exists_reals fun x hx => ?_
  obtain ⟨_, r, heq, rfl, hle⟩ := exists_of_holds (h x hx)
  rw [zero_eq] at heq
  cases heq
  exact ⟨r, rfl, hle⟩

section Spread

variable {xs : List (ExactNumber exp)}

lemma within_spread (h : ∀ x ∈ xs, Scalar.le 0.0 x = true) :
    Scalar.within 0.0 1.0 (spread xs) = true := by
  obtain ⟨rs, rfl, -⟩ := exists_measures h
  exact (finiteWithin_spread (List.forall_mem_map.2 fun _ _ => rfl)).within

/-- The consistency does not depend on the order of the measures. -/
lemma spread_perm {xs' : List (ExactNumber exp)} (hperm : xs.Perm xs') (hne : xs ≠ [])
    (h : ∀ x ∈ xs, Scalar.le 0.0 x = true) : spread xs = spread xs' := by
  obtain ⟨rs, rfl, hrs⟩ := exists_measures h
  obtain ⟨rs', rfl, hrs'⟩ := exists_measures fun x hx => h x (hperm.mem_iff.2 hx)
  obtain ⟨low, high, hlow, hhigh⟩ : ∃ low high, rs.min? = some low ∧ rs.max? = some high :=
    exists_bounds (by simpa using hne)
  have hreals : rs.Perm rs' := (List.map_perm_map_iff fun _ _ h => by simpa using h).1 hperm
  have hlow' : rs'.min? = some low := by
    simpa only [List.min?_eq_some_iff, hreals.mem_iff] using hlow
  have hhigh' : rs'.max? = some high := by
    simpa only [List.max?_eq_some_iff, hreals.mem_iff] using hhigh
  rw [spread_some hrs hlow hhigh, spread_some hrs' hlow' hhigh']

/-- Measures are as consistent as the least one is close to the greatest one. -/
lemma spread_eq_div (h : ∀ x ∈ xs, Scalar.le 0.0 x = true) {low high : ExactNumber exp}
    (hlow : low ∈ xs) (hle : ∀ x ∈ xs, Scalar.le low x = true) (hhigh : high ∈ xs)
    (hle' : ∀ x ∈ xs, Scalar.le x high = true) (hpos : Scalar.lt 0.0 high = true) :
    spread xs = low / high := by
  obtain ⟨rs, rfl, hrs⟩ := exists_measures h
  obtain ⟨a, ha, rfl⟩ := List.mem_map.1 hlow
  obtain ⟨b, hb, rfl⟩ := List.mem_map.1 hhigh
  simp only [List.forall_mem_map, le_some] at hle hle'
  rw [zero_eq, lt_some] at hpos
  rw [spread_some hrs (List.min?_eq_some_iff.2 ⟨ha, hle⟩) (List.max?_eq_some_iff.2 ⟨hb, hle'⟩),
    if_neg hpos.ne', div_some hpos.ne']

/-- Measures are fully consistent only if they are all equal. -/
lemma spread_eq_one_iff (hne : xs ≠ []) (h : ∀ x ∈ xs, Scalar.le 0.0 x = true) :
    spread xs = 1.0 ↔ ∀ x ∈ xs, ∀ y ∈ xs, x = y := by
  obtain ⟨rs, rfl, hrs⟩ := exists_measures h
  obtain ⟨low, high, hlow, hhigh⟩ : ∃ low high, rs.min? = some low ∧ rs.max? = some high :=
    exists_bounds (by simpa using hne)
  obtain ⟨hmem, hle⟩ := List.min?_eq_some_iff.1 hlow
  obtain ⟨hmem', hle'⟩ := List.max?_eq_some_iff.1 hhigh
  have hequal : (∀ a ∈ rs, ∀ b ∈ rs, a = b) ↔ low = high := by
    refine ⟨fun hall => hall low hmem high hmem', ?_⟩
    rintro rfl a ha b hb
    exact (le_antisymm (hle' a ha) (hle a ha)).trans (le_antisymm (hle b hb) (hle' b hb))
  simp only [spread_some hrs hlow hhigh, one_eq, List.forall_mem_map, ExactNumber.mk.injEq,
    Option.some_inj, hequal]
  split_ifs with hzero
  · exact iff_of_true rfl (le_antisymm (hle high hmem') (hzero ▸ hrs low hmem))
  · exact div_eq_one_iff_eq hzero

end Spread

/-- Consistency is fair in exact numbers, whatever they have for an exponential function.  That of
at least two values lies in the unit interval, is the same for the values in another order, and so
for languages of other names, and is 1 exactly if all values are equal; that of numbers is the same
for all of their multiples.  That of measures that are not negative lies in the unit interval, is
the same in another order, is the quotient of the least and the greatest one, and is 1 exactly if
all measures are equal. -/
theorem consistency_fair (exp : ℝ → ℝ) :
    (∀ values : List (ConventionValue (ExactNumber exp)), 2 ≤ values.length →
      (∀ v ∈ values, Valued v) →
        Scalar.within 0.0 1.0 (ofValues values) = true ∧
        (∀ values', values.Perm values' → ofValues values = ofValues values') ∧
        (ofValues values = 1.0 ↔ ∀ v ∈ values, ∀ w ∈ values, v = w)) ∧
    (∀ (name name' : String) (m m' : SortedMap (ConventionValue (ExactNumber exp))),
      (∀ v ∈ m.values, Valued v) → m.values.Perm m'.values →
        ∀ c ∈ ofEntry? name m, ∀ c' ∈ ofEntry? name' m', c.consistency = c'.consistency) ∧
    (∀ (c : ExactNumber exp) (xs : List (ExactNumber exp)), Scalar.isNaN c = false →
      Scalar.same c 0.0 = false → (∀ x ∈ xs, Scalar.isNaN x = false) →
        ofValues (xs.map fun x => .number (c * x)) = ofValues (xs.map .number)) ∧
    ∀ xs : List (ExactNumber exp), xs ≠ [] → (∀ x ∈ xs, Scalar.le 0.0 x = true) →
      Scalar.within 0.0 1.0 (spread xs) = true ∧
      (∀ xs', xs.Perm xs' → spread xs = spread xs') ∧
      (∀ low ∈ xs, ∀ high ∈ xs, (∀ x ∈ xs, Scalar.within low high x = true) →
        Scalar.lt 0.0 high = true → spread xs = low / high) ∧
      (spread xs = 1.0 ↔ ∀ x ∈ xs, ∀ y ∈ xs, x = y) := by
  refine ⟨fun values hlength h => ⟨(finiteWithin_ofValues values).within,
    fun values' hperm => ofValues_perm hperm h, ofValues_eq_one_iff hlength h⟩, ?_,
    fun c xs hc hzero h => ofValues_mul hc hzero h,
    fun xs hne h => ⟨within_spread h, fun xs' hperm => spread_perm hperm hne h, ?_,
      spread_eq_one_iff hne h⟩⟩
  · intro name name' m m' h hperm c hc c' hc'
    obtain ⟨-, rfl⟩ := eq_of_ofEntry? hc
    obtain ⟨-, rfl⟩ := eq_of_ofEntry? hc'
    exact ofValues_perm hperm h
  · intro low hlow high hhigh hwithin hpos
    have hwithin' := fun x hx => Bool.and_eq_true_iff.1 (hwithin x hx)
    exact spread_eq_div h hlow (fun x hx => (hwithin' x hx).1) hhigh (fun x hx => (hwithin' x hx).2)
      hpos

/-- The laws at two of each. -/
theorem consistency_of_two :
    ofValues [.number 2.0, .number (4.0 : ExactNumber Real.exp)] ≠ 1.0 ∧
    (∀ c ∈ ofEntry? "tabs" (.ofList [("go", .flag true),
        ("rust", (.flag false : ConventionValue (ExactNumber Real.exp)))]),
      ∀ c' ∈ ofEntry? "tabs" (.ofList [("c", .flag false), ("java", .flag true)]),
        c.consistency = c'.consistency) ∧
    ofValues [.number (3.0 * 2.0), .number (3.0 * 4.0 : ExactNumber Real.exp)]
      = ofValues [.number 2.0, .number 4.0] ∧
    spread [(5.0 : ExactNumber Real.exp), 10.0] = 5.0 / 10.0 := by
  obtain ⟨hvalues, hentries, hscaled, hmeasures⟩ := consistency_fair Real.exp
  have hvalued : ∀ v ∈ [.number 2.0, .number (4.0 : ExactNumber Real.exp)], Valued v := by
    simp only [List.forall_mem_cons, valued_number, List.not_mem_nil, false_implies, implies_true]
    exact ⟨rfl, rfl, trivial⟩
  have hflags : ∀ v ∈ [.flag true, (.flag false : ConventionValue (ExactNumber Real.exp))],
      Valued v := by
    simp
  refine ⟨fun hone => ?_, hentries _ _ _ _ hflags (List.Perm.swap _ _ _),
    hscaled 3.0 [2.0, 4.0] rfl ?_ ?_,
    (hmeasures [5.0, 10.0] (by simp) ?_).2.2.1 _ (by simp) _ (by simp) ?_ ?_⟩
  · have hequal := (hvalues _ le_rfl hvalued).2.2.1 hone
    simp [tenths] at hequal
  · rw [← Bool.not_eq_true]
    simp [tenths]
  · exact fun x hx => valued_number.1 (hvalued _ (List.mem_map_of_mem hx))
  · norm_num [tenths]
  · norm_num [tenths, Scalar.within]
  · norm_num [tenths]

end Comparison

end HouseStyle
