import HouseStyle.Proofs.Json.WholeNumber
import Mathlib.Data.Prod.Lex

/-!
# The order of the numbers in which is computed

Where numbers are only compared and cut off, a few laws of the order are enough (`OrderedScalar`).
Unlike those of exact arithmetic they hold of binary numbers as they are: two of them compare like
their ranks, a number without a value compares with none, and nothing divided by anything is not
positive.
-/

namespace HouseStyle

/-- The laws of the order of the numbers in which is computed. -/
class OrderedScalar (α : Type) [Scalar α] : Prop where
  /-- Only numbers with a value are compared. -/
  isNaN_of_le : ∀ {x y : α}, Scalar.le x y = true →
    Scalar.isNaN x = false ∧ Scalar.isNaN y = false
  /-- Of two numbers with a value the one that is not below the other is at least as great. -/
  le_of_not_lt : ∀ {x y : α}, Scalar.isNaN x = false → Scalar.isNaN y = false →
    Scalar.lt x y = false → Scalar.le y x = true
  /-- A number is not below one that it is at least as great as. -/
  not_lt_of_le : ∀ {x y : α}, Scalar.le x y = true → Scalar.lt y x = false
  le_trans : ∀ {x y z : α}, Scalar.le x y = true → Scalar.le y z = true → Scalar.le x z = true
  lt_of_lt_of_le : ∀ {x y z : α}, Scalar.lt x y = true → Scalar.le y z = true →
    Scalar.lt x z = true
  lt_of_le_of_lt : ∀ {x y z : α}, Scalar.le x y = true → Scalar.lt y z = true →
    Scalar.lt x z = true
  /-- The tenths of the unit interval are ordered as they are written. -/
  le_tenths : ∀ {m n : Nat}, m ≤ n → n ≤ 10 → Scalar.le (OfScientific.ofScientific m true 1 : α)
    (OfScientific.ofScientific n true 1) = true
  /-- Nothing divided by anything is not positive. -/
  not_lt_zero_div : ∀ y : α, Scalar.lt (0.0 : α) (Scalar.ofCount 0 / y) = false

/-! ### What follows from the laws -/

namespace Scalar

open OrderedScalar

variable {α : Type} [Scalar α] [OrderedScalar α]

lemma le_zero_one : le (0.0 : α) 1.0 = true := le_tenths (by decide) (by decide)

/-- Cutting off in the unit interval gives something in it, whatever is cut off. -/
lemma within_clampUnit (x : α) : within 0.0 1.0 (clampUnit x) = true := by
  have hzero : le (0.0 : α) 0.0 = true := le_tenths (by decide) (by decide)
  have hone : le (1.0 : α) 1.0 = true := le_tenths (by decide) (by decide)
  obtain ⟨hnan, hnan'⟩ := isNaN_of_le (le_zero_one (α := α))
  rw [clampUnit, within]
  split_ifs with hx
  · rw [hzero, le_zero_one]
    rfl
  · rw [Bool.not_eq_true] at hx
    rw [clamp]
    split_ifs with hbelow habove
    · rw [hzero, le_zero_one]
      rfl
    · rw [hone, le_zero_one]
      rfl
    · rw [Bool.not_eq_true] at hbelow habove
      rw [le_of_not_lt hx hnan hbelow, le_of_not_lt hnan' hx habove]
      rfl

/-- In the unit interval nothing is cut off. -/
lemma clampUnit_of_within {x : α} (h : within 0.0 1.0 x = true) : clampUnit x = x := by
  obtain ⟨hlow, hhigh⟩ := Bool.and_eq_true_iff.1 h
  have hx := (isNaN_of_le hlow).2
  rw [clampUnit, hx, if_neg Bool.false_ne_true, clamp, not_lt_of_le hlow,
    if_neg Bool.false_ne_true, not_lt_of_le hhigh, if_neg Bool.false_ne_true]

/-- Cutting off twice is cutting off once. -/
lemma clampUnit_clampUnit (x : α) : clampUnit (clampUnit x) = clampUnit x :=
  clampUnit_of_within (within_clampUnit x)

lemma isNaN_clampUnit (x : α) : isNaN (clampUnit x) = false :=
  (isNaN_of_le (Bool.and_eq_true_iff.1 (within_clampUnit x)).1).2

/-- The share of nothing exceeds no tenth of the unit interval. -/
lemma not_lt_share_zero {n whole : Nat} (hn : n ≤ 10) (hwhole : whole ≠ 0) :
    lt (OfScientific.ofScientific n true 1 : α) (share 0 whole) = false := by
  have hzero := not_lt_zero_div (α := α) (Scalar.ofCount whole)
  rw [share, if_neg hwhole]
  rw [← Bool.not_eq_true] at hzero ⊢
  exact fun h => hzero (lt_of_le_of_lt (le_tenths (Nat.zero_le n) hn) h)

end Scalar

/-! ### Whole numbers -/

instance : OrderedScalar WholeNumber where
  isNaN_of_le _ := ⟨rfl, rfl⟩
  le_of_not_lt _ _ h := by
    simp only [Scalar.lt, Scalar.le, decide_eq_false_iff_not, decide_eq_true_eq] at h ⊢
    omega
  not_lt_of_le h := by
    simp only [Scalar.lt, Scalar.le, decide_eq_false_iff_not, decide_eq_true_eq] at h ⊢
    omega
  le_trans h h' := by
    simp only [Scalar.le, decide_eq_true_eq] at h h' ⊢
    omega
  lt_of_lt_of_le h h' := by
    simp only [Scalar.lt, Scalar.le, decide_eq_true_eq] at h h' ⊢
    omega
  lt_of_le_of_lt h h' := by
    simp only [Scalar.lt, Scalar.le, decide_eq_true_eq] at h h' ⊢
    omega
  le_tenths := by
    intro m n h _
    have hdiv : (m : Int) / 10 ≤ (n : Int) / 10 := by omega
    exact decide_eq_true hdiv
  not_lt_zero_div y := by
    change decide ((0 : Int) / 10 < 0 / y.value) = false
    rw [Int.zero_ediv, Int.zero_ediv]
    rfl

/-! ### Binary numbers -/

namespace Binary64

open Float.Model

/-- The place of a number among all that have a value: first by its kind, then by its exponent and
mantissa, which count down below 0. -/
def rank : UnpackedFloat → ℤ ×ₗ ℤ ×ₗ ℤ
  | .infinity .negative => toLex (-2, toLex (0, 0))
  | .finite .negative m e _ => toLex (-1, toLex (-e, -m))
  | .notANumber => toLex (0, toLex (0, 0))
  | .zero _ => toLex (0, toLex (0, 0))
  | .finite .positive m e _ => toLex (1, toLex (e, m))
  | .infinity .positive => toLex (2, toLex (0, 0))

lemma compare_natCast (m n : ℕ) : compare (m : ℤ) n = compare m n := by
  rcases lt_trichotomy m n with h | rfl | h
  · rw [compare_lt_iff_lt.2 h, compare_lt_iff_lt]
    exact Int.ofNat_lt.2 h
  · rw [compare_eq_iff_eq.2 (rfl : m = m), compare_eq_iff_eq]
  · rw [compare_gt_iff_gt.2 h, compare_gt_iff_gt]
    exact Int.ofNat_lt.2 h

lemma compare_neg (x y : ℤ) : compare (-x) (-y) = (compare x y).swap := by
  rcases lt_trichotomy x y with h | rfl | h
  · rw [compare_lt_iff_lt.2 h, Ordering.swap, compare_gt_iff_gt]
    exact Int.neg_lt_neg h
  · rw [compare_eq_iff_eq.2 (rfl : x = x), Ordering.swap, compare_eq_iff_eq]
  · rw [compare_gt_iff_gt.2 h, Ordering.swap, compare_lt_iff_lt]
    exact Int.neg_lt_neg h

/-- Numbers with a value compare like their ranks. -/
lemma compare_eq {a b : UnpackedFloat} (ha : a ≠ .notANumber) (hb : b ≠ .notANumber) :
    a.compare b = some (compare (rank a) (rank b)) := by
  rcases a with (_ | _) | _ | _ | ⟨_ | _, m, e, _⟩ <;>
  rcases b with (_ | _) | _ | _ | ⟨_ | _, n, f, _⟩
  case finite.negative.finite.negative =>
    have hswap : (compare (-e) (-f)).then (compare (-(m : ℤ)) (-(n : ℤ)))
        = ((compare e f).then (compare m n)).swap := by
      rw [compare_neg, compare_neg, compare_natCast, Ordering.swap_then]
    exact congrArg some hswap.symm
  case finite.positive.finite.positive =>
    exact congrArg (fun o => some ((compare e f).then o)) (compare_natCast m n).symm
  all_goals
    first
    | exact absurd rfl ha
    | exact absurd rfl hb
    | rfl

lemma compare_eq_none {a b : UnpackedFloat} (h : ¬(a ≠ .notANumber ∧ b ≠ .notANumber)) :
    a.compare b = none := by
  rw [not_and_or, not_not, not_not] at h
  rcases h with rfl | rfl
  · rfl
  · cases a <;> rfl

lemma le_iff {a b : UnpackedFloat} : a.le b = true ↔
    (a ≠ .notANumber ∧ b ≠ .notANumber) ∧ rank a ≤ rank b := by
  rw [UnpackedFloat.le]
  by_cases h : a ≠ .notANumber ∧ b ≠ .notANumber
  · rw [compare_eq h.1 h.2, Option.any_some, and_iff_right h, Ordering.isLE_iff_ne_gt]
    exact compare_le_iff_le
  · rw [compare_eq_none h]
    exact iff_of_false Bool.false_ne_true fun h' => h h'.1

lemma lt_iff {a b : UnpackedFloat} : a.lt b = true ↔
    (a ≠ .notANumber ∧ b ≠ .notANumber) ∧ rank a < rank b := by
  rw [UnpackedFloat.lt]
  by_cases h : a ≠ .notANumber ∧ b ≠ .notANumber
  · rw [compare_eq h.1 h.2, and_iff_right h, beq_iff_eq, Option.some_inj, compare_lt_iff_lt]
  · rw [compare_eq_none h]
    exact iff_of_false Bool.false_ne_true fun h' => h h'.1

lemma isNaN_eq_false_iff {x : Float} :
    Scalar.isNaN x = false ↔ x.toModel.unpack ≠ .notANumber := by
  have hnan : Scalar.isNaN x = x.toModel.unpack.isNaN := rfl
  rw [hnan]
  cases x.toModel.unpack with
  | notANumber => exact iff_of_false Bool.noConfusion fun h => h rfl
  | infinity | zero | finite => exact iff_of_true rfl nofun

lemma scalar_le_iff {x y : Float} : Scalar.le x y = true ↔
    (Scalar.isNaN x = false ∧ Scalar.isNaN y = false) ∧
      rank x.toModel.unpack ≤ rank y.toModel.unpack := by
  have hle : Scalar.le x y = x.toModel.unpack.le y.toModel.unpack := by
    change decide (decide (x.toModel.unpack.le y.toModel.unpack = true) = true) = _
    rw [Bool.decide_eq_true, Bool.decide_eq_true]
  rw [hle, le_iff, isNaN_eq_false_iff, isNaN_eq_false_iff]

lemma scalar_lt_iff {x y : Float} : Scalar.lt x y = true ↔
    (Scalar.isNaN x = false ∧ Scalar.isNaN y = false) ∧
      rank x.toModel.unpack < rank y.toModel.unpack := by
  have hlt : Scalar.lt x y = x.toModel.unpack.lt y.toModel.unpack := by
    change decide (decide (x.toModel.unpack.lt y.toModel.unpack = true) = true) = _
    rw [Bool.decide_eq_true, Bool.decide_eq_true]
  rw [hlt, lt_iff, isNaN_eq_false_iff, isNaN_eq_false_iff]

/-- Nothing divided by anything is nothing, or has no value. -/
lemma unpack_zero_div (y : Float) :
    (Scalar.ofCount 0 / y).toModel.unpack = .notANumber ∨
      ∃ sign, (Scalar.ofCount 0 / y).toModel.unpack = .zero sign := by
  have hzero : (Scalar.ofCount 0 : Float).toModel.unpack = .zero .positive := rfl
  have hdiv : (Scalar.ofCount 0 / y).toModel.unpack
      = (Float.Model.pack (UnpackedFloat.div Format.binary64 (.zero .positive)
        y.toModel.unpack)).unpack := by
    rw [← hzero]
    rfl
  have hnone : (Float.Model.pack .notANumber).unpack = .notANumber := rfl
  have hsign (sign : UnpackedFloat.Sign) :
      (Float.Model.pack (.zero sign)).unpack = .zero sign := by
    cases sign <;> rfl
  rw [hdiv]
  cases y.toModel.unpack with
  | notANumber => exact Or.inl hnone
  | zero => exact Or.inl hnone
  | infinity sign => exact Or.inr ⟨_, hsign _⟩
  | finite sign m e => exact Or.inr ⟨_, hsign _⟩

end Binary64

instance : OrderedScalar Float where
  isNaN_of_le h := (Binary64.scalar_le_iff.1 h).1
  le_of_not_lt hx hy h := by
    rw [← Bool.not_eq_true, Binary64.scalar_lt_iff] at h
    exact Binary64.scalar_le_iff.2 ⟨⟨hy, hx⟩, not_lt.1 fun hlt => h ⟨⟨hx, hy⟩, hlt⟩⟩
  not_lt_of_le h := by
    rw [← Bool.not_eq_true, Binary64.scalar_lt_iff]
    exact fun hlt => not_lt_of_ge (Binary64.scalar_le_iff.1 h).2 hlt.2
  le_trans h h' := by
    obtain ⟨⟨hx, -⟩, hxy⟩ := Binary64.scalar_le_iff.1 h
    obtain ⟨⟨-, hz⟩, hyz⟩ := Binary64.scalar_le_iff.1 h'
    exact Binary64.scalar_le_iff.2 ⟨⟨hx, hz⟩, hxy.trans hyz⟩
  lt_of_lt_of_le h h' := by
    obtain ⟨⟨hx, -⟩, hxy⟩ := Binary64.scalar_lt_iff.1 h
    obtain ⟨⟨-, hz⟩, hyz⟩ := Binary64.scalar_le_iff.1 h'
    exact Binary64.scalar_lt_iff.2 ⟨⟨hx, hz⟩, hxy.trans_le hyz⟩
  lt_of_le_of_lt h h' := by
    obtain ⟨⟨hx, -⟩, hxy⟩ := Binary64.scalar_le_iff.1 h
    obtain ⟨⟨-, hz⟩, hyz⟩ := Binary64.scalar_lt_iff.1 h'
    exact Binary64.scalar_lt_iff.2 ⟨⟨hx, hz⟩, hxy.trans_lt hyz⟩
  le_tenths := by
    have hall : ∀ n < 11, ∀ m < n + 1, Scalar.le (OfScientific.ofScientific m true 1 : Float)
        (OfScientific.ofScientific n true 1) = true := by decide +kernel
    intro m n h hn
    exact hall n (by omega) m (by omega)
  not_lt_zero_div y := by
    have hzero : Binary64.rank (0.0 : Float).toModel.unpack = toLex (0, toLex (0, 0)) := by
      decide +kernel
    rw [← Bool.not_eq_true, Binary64.scalar_lt_iff, hzero]
    rintro ⟨-, hlt⟩
    rcases Binary64.unpack_zero_div y with h | ⟨sign, h⟩
    all_goals
      rw [h] at hlt
      exact lt_irrefl _ hlt

end HouseStyle
