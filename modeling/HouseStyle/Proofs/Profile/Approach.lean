import HouseStyle.Profile.Basic
import HouseStyle.Proofs.Number.DecimalFraction
import Mathlib.Order.Interval.Set.UnorderedInterval
import Mathlib.Tactic.Linarith

/-!
# Coming closer

A profile is adapted by moving its strictness from an earlier one by a share of the way towards the
fresh one.  In exact arithmetic the result lies between the two, so it is never cut off
(`Profile.value_adapt`), and whoever does so again and again comes closer by the same factor each
time (`approach`).
-/

namespace HouseStyle

/-! ### A share of the way -/

/-- Where one is who started somewhere and went some times a share of the way that was left to a
target. -/
def approach (rate start target : ℝ) (n : ℕ) : ℝ := target + (1 - rate) ^ n * (start - target)

section approach

variable {rate : ℝ} (start target : ℝ)

lemma approach_zero (rate : ℝ) : approach rate start target 0 = start := by
  simp [approach]

lemma approach_succ (rate : ℝ) (n : ℕ) : approach rate start target (n + 1)
    = approach rate start target n + rate * (target - approach rate start target n) := by
  simp only [approach]
  ring

lemma pow_mem_unit (h : 0 ≤ rate) (h' : rate ≤ 1) (n : ℕ) :
    0 ≤ (1 - rate) ^ n ∧ (1 - rate) ^ n ≤ 1 := by
  have hleft : 0 ≤ 1 - rate := by linarith
  exact ⟨pow_nonneg hleft n, pow_le_one₀ hleft (by linarith)⟩

/-- One never goes beyond the target. -/
lemma approach_mem_uIcc (h : 0 ≤ rate) (h' : rate ≤ 1) (n : ℕ) :
    approach rate start target n ∈ Set.uIcc start target := by
  obtain ⟨hpos, hone⟩ := pow_mem_unit h h' n
  rw [approach, Set.mem_uIcc]
  rcases le_total start target with hle | hle
  · exact Or.inl ⟨by nlinarith, by nlinarith⟩
  · exact Or.inr ⟨by nlinarith, by nlinarith⟩

/-- One never goes away from the target. -/
lemma abs_approach_sub_le (h : 0 ≤ rate) (h' : rate ≤ 1) (n : ℕ) :
    |approach rate start target n - target| ≤ |start - target| := by
  obtain ⟨hpos, hone⟩ := pow_mem_unit h h' n
  have hdistance : approach rate start target n - target = (1 - rate) ^ n * (start - target) := by
    rw [approach, add_sub_cancel_left]
  rw [hdistance, abs_mul, abs_of_nonneg hpos]
  exact mul_le_of_le_one_left (abs_nonneg _) hone

end approach

/-! ### Adapting in exact arithmetic -/

open ExactScalar

variable {α : Type} [Scalar α] [LawfulScalar α] [ExactScalar α] {rate x y : α}

/-- Bounds with one place are those of the real number. -/
lemma Scalar.finiteWithin_iff {m n : ℕ} (hm : m ≤ 100) (hn : n ≤ 100) :
    FiniteWithin (OfScientific.ofScientific m true 1 : α) (OfScientific.ofScientific n true 1) x ↔
      isFinite x = true ∧ (m : ℝ) / 10 ≤ value x ∧ value x ≤ n / 10 := by
  have hlow := LawfulScalar.isFinite_tenths (α := α) hm
  have hhigh := LawfulScalar.isFinite_tenths (α := α) hn
  constructor
  · rintro ⟨hx, hwithin⟩
    rw [within, Bool.and_eq_true, le_iff hlow hx, le_iff hx hhigh, value_tenths,
      value_tenths] at hwithin
    exact ⟨hx, hwithin⟩
  · rintro ⟨hx, hwithin⟩
    refine ⟨hx, ?_⟩
    rwa [within, Bool.and_eq_true, le_iff hlow hx, le_iff hx hhigh, value_tenths, value_tenths]

namespace Strictness

/-- Moving by a share of the way stays between the bounds, as both ends do. -/
lemma finiteWithin_blend (hrate : Scalar.FiniteWithin 0.0 1.0 rate)
    (hx : Scalar.FiniteWithin least greatest x) (hy : Scalar.FiniteWithin least greatest y) :
    Scalar.FiniteWithin least greatest (blend rate x y) ∧
      value (blend rate x y) = value x + value rate * (value y - value x) := by
  obtain ⟨hr, hr0, hr1⟩ := (Scalar.finiteWithin_iff (by decide) (by decide)).1 hrate
  obtain ⟨hxf, hx0, hx1⟩ := (Scalar.finiteWithin_iff (by decide) (by decide)).1 hx
  obtain ⟨hyf, hy0, hy1⟩ := (Scalar.finiteWithin_iff (by decide) (by decide)).1 hy
  have hdiff := isFinite_sub hyf hxf
  have hstep := isFinite_mul hr hdiff
  have hvalue : value (blend rate x y) = value x + value rate * (value y - value x) := by
    rw [blend, value_add hxf hstep, value_mul hr hdiff, value_sub hyf hxf]
  refine ⟨(Scalar.finiteWithin_iff (by decide) (by decide)).2 ⟨isFinite_add hxf hstep, ?_, ?_⟩,
    hvalue⟩
  · rw [hvalue]
    nlinarith
  · rw [hvalue]
    nlinarith

/-- A strictness within the bounds is not cut off. -/
lemma clamp_of_finiteWithin (hx : Scalar.FiniteWithin least greatest x) : clamp least x = x := by
  obtain ⟨hxf, hx0, hx1⟩ := (Scalar.finiteWithin_iff (by decide) (by decide)).1 hx
  have hleast : Scalar.isFinite (least : α) = true := LawfulScalar.isFinite_tenths (by decide)
  have hgreatest : Scalar.isFinite (greatest : α) = true := LawfulScalar.isFinite_tenths (by decide)
  have hlow : Scalar.lt x least = false := by
    rw [← Bool.not_eq_true, lt_iff hxf hleast, not_lt]
    exact (value_tenths 1).trans_le hx0
  have hhigh : Scalar.lt greatest x = false := by
    rw [← Bool.not_eq_true, lt_iff hgreatest hxf, not_lt]
    exact hx1.trans_eq (value_tenths 10).symm
  rw [clamp, LawfulScalar.isNaN_of_isFinite hxf, if_neg Bool.false_ne_true, Scalar.clamp, hlow,
    if_neg Bool.false_ne_true, hhigh, if_neg Bool.false_ne_true]

end Strictness

/-- The strictness of an adapted profile. -/
lemma Profile.value_adapt {previous fresh : Profile α} (hrate : Scalar.FiniteWithin 0.0 1.0 rate)
    (hprevious : Scalar.FiniteWithin Strictness.least Strictness.greatest previous.strictness)
    (hfresh : Scalar.FiniteWithin Strictness.least Strictness.greatest fresh.strictness) :
    Scalar.FiniteWithin Strictness.least Strictness.greatest
        (adapt rate previous fresh).strictness ∧
      value (adapt rate previous fresh).strictness = value previous.strictness
        + value rate * (value fresh.strictness - value previous.strictness) := by
  have hblend := Strictness.finiteWithin_blend hrate hprevious hfresh
  have hsame : (adapt rate previous fresh).strictness
      = Strictness.blend rate previous.strictness fresh.strictness :=
    Strictness.clamp_of_finiteWithin hblend.1
  rwa [hsame]

end HouseStyle
