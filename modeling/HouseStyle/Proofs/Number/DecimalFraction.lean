import HouseStyle.Proofs.Json.Spelling
import HouseStyle.Proofs.Number.Laws
import Mathlib.Algebra.Order.Archimedean.Real.Basic
import Mathlib.Data.Rat.Floor
import Mathlib.Tactic.FieldSimp
import Mathlib.Tactic.Positivity
import Mathlib.Tactic.Ring

/-!
# Exact arithmetic with numbers that have a text

Some formulas of the library only add, subtract and multiply.  Where these operations are exact
(`ExactScalar`), the formulas are those over the real numbers.

The decimal fractions are a type of numbers in which they are exact and every number has a text of
its own.  Quotients and roots are cut off there, and the exponential function, which no such formula
needs, is left out.
-/

namespace HouseStyle

open Document

/-- Numbers in which sums, differences and products are exact. -/
class ExactScalar (α : Type) [Scalar α] where
  /-- The real number that a finite number is. -/
  value : α → ℝ
  isFinite_add : ∀ {x y : α}, Scalar.isFinite x = true → Scalar.isFinite y = true →
    Scalar.isFinite (x + y) = true
  isFinite_sub : ∀ {x y : α}, Scalar.isFinite x = true → Scalar.isFinite y = true →
    Scalar.isFinite (x - y) = true
  isFinite_mul : ∀ {x y : α}, Scalar.isFinite x = true → Scalar.isFinite y = true →
    Scalar.isFinite (x * y) = true
  value_add : ∀ {x y : α}, Scalar.isFinite x = true → Scalar.isFinite y = true →
    value (x + y) = value x + value y
  value_sub : ∀ {x y : α}, Scalar.isFinite x = true → Scalar.isFinite y = true →
    value (x - y) = value x - value y
  value_mul : ∀ {x y : α}, Scalar.isFinite x = true → Scalar.isFinite y = true →
    value (x * y) = value x * value y
  /-- Numbers that are written with one place are what is written. -/
  value_tenths : ∀ n : Nat, value (OfScientific.ofScientific n true 1) = n / 10
  le_iff : ∀ {x y : α}, Scalar.isFinite x = true → Scalar.isFinite y = true →
    (Scalar.le x y = true ↔ value x ≤ value y)
  lt_iff : ∀ {x y : α}, Scalar.isFinite x = true → Scalar.isFinite y = true →
    (Scalar.lt x y = true ↔ value x < value y)

/-! ### Decimal fractions -/

/-- Whether a rational number is a whole number behind moving the point. -/
def IsDecimal (q : ℚ) : Prop := ∃ k : ℕ, (q * 10 ^ k).den = 1

namespace IsDecimal

lemma of_eq {q : ℚ} (k : ℕ) (m : ℤ) (h : q * 10 ^ k = m) : IsDecimal q := ⟨k, by rw [h]; rfl⟩

lemma exists_eq {q : ℚ} (h : IsDecimal q) : ∃ (k : ℕ) (m : ℤ), q * 10 ^ k = m := by
  obtain ⟨k, hk⟩ := h
  exact ⟨k, (q * 10 ^ k).num, ((Rat.den_eq_one_iff _).1 hk).symm⟩

lemma add {p q : ℚ} (hp : IsDecimal p) (hq : IsDecimal q) : IsDecimal (p + q) := by
  obtain ⟨j, m, hm⟩ := hp.exists_eq
  obtain ⟨k, n, hn⟩ := hq.exists_eq
  refine of_eq (j + k) (m * 10 ^ k + n * 10 ^ j) ?_
  push_cast
  rw [← hm, ← hn]
  ring

lemma neg {q : ℚ} (hq : IsDecimal q) : IsDecimal (-q) := by
  obtain ⟨k, n, hn⟩ := hq.exists_eq
  refine of_eq k (-n) ?_
  push_cast
  rw [← hn]
  ring

lemma sub {p q : ℚ} (hp : IsDecimal p) (hq : IsDecimal q) : IsDecimal (p - q) := by
  rw [sub_eq_add_neg]
  exact hp.add hq.neg

lemma mul {p q : ℚ} (hp : IsDecimal p) (hq : IsDecimal q) : IsDecimal (p * q) := by
  obtain ⟨j, m, hm⟩ := hp.exists_eq
  obtain ⟨k, n, hn⟩ := hq.exists_eq
  refine of_eq (j + k) (m * n) ?_
  push_cast
  rw [← hm, ← hn]
  ring

lemma intCast (n : ℤ) : IsDecimal n := of_eq 0 n (by simp)

lemma natCast (n : ℕ) : IsDecimal n := intCast n

/-- A number with places behind the point. -/
lemma div_pow (n : ℤ) (k : ℕ) : IsDecimal (n / 10 ^ k) := of_eq k n (by field_simp)

lemma pow (k : ℕ) : IsDecimal (10 ^ k) := by
  have h := natCast (10 ^ k)
  push_cast at h
  exact h

lemma abs {q : ℚ} (hq : IsDecimal q) : IsDecimal |q| := by
  rcases abs_choice q with h | h
  · rwa [h]
  · rw [h]
    exact hq.neg

end IsDecimal

/-- A decimal fraction. -/
@[ext]
structure DecimalFraction where
  /-- The number. -/
  value : ℚ
  isDecimal : IsDecimal value
deriving DecidableEq

namespace DecimalFraction

/-- The number of places behind the point. -/
def places (x : DecimalFraction) : ℕ := Nat.find x.isDecimal

/-- The number without its point. -/
def numerator (x : DecimalFraction) : ℤ := (x.value * 10 ^ x.places).num

lemma value_eq (x : DecimalFraction) : x.value = x.numerator / 10 ^ x.places := by
  have hden : (x.value * 10 ^ x.places).den = 1 := Nat.find_spec x.isDecimal
  rw [numerator, (Rat.den_eq_one_iff _).1 hden]
  field_simp

/-- The text, with an exponent for the place of the point. -/
def text (x : DecimalFraction) : String :=
  String.ofList (Json.wholeText x.numerator ++ 'e' :: '-' :: Nat.toDigits 10 x.places)

/-- The number that digits with a place of the point spell. -/
def ofDigits (m : ℕ) : ℤ → DecimalFraction
  | .ofNat k => ⟨m * 10 ^ k, (IsDecimal.natCast m).mul (.pow k)⟩
  | .negSucc k => ⟨m / 10 ^ (k + 1), IsDecimal.div_pow m (k + 1)⟩

/-- Quotients have sixteen places, and are cut off there. -/
def quotient (p q : ℚ) : ℚ := ⌊p / q * 10 ^ 16⌋ / 10 ^ 16

instance : Scalar DecimalFraction where
  add x y := ⟨x.value + y.value, x.isDecimal.add y.isDecimal⟩
  sub x y := ⟨x.value - y.value, x.isDecimal.sub y.isDecimal⟩
  mul x y := ⟨x.value * y.value, x.isDecimal.mul y.isDecimal⟩
  div x y := ⟨quotient x.value y.value, IsDecimal.div_pow _ _⟩
  neg x := ⟨-x.value, x.isDecimal.neg⟩
  ofScientific m negative k :=
    if negative then ⟨m / 10 ^ k, IsDecimal.div_pow m k⟩
    else ⟨m * 10 ^ k, (IsDecimal.natCast m).mul (.pow k)⟩
  ofCount n := ⟨n, .natCast n⟩
  le x y := decide (x.value ≤ y.value)
  lt x y := decide (x.value < y.value)
  same x y := decide (x.value = y.value)
  exp x := x
  sqrt x := ⟨(⌊x.value⌋.toNat.sqrt : ℕ), .natCast _⟩
  abs x := ⟨|x.value|, x.isDecimal.abs⟩
  isNaN _ := false
  isFinite _ := true
  wholePart x := min ⌊x.value⌋.toNat (Count.wordSize 64 - 1)
  nearest x := min ⌊x.value + 1 / 2⌋.toNat (Count.wordSize 64 - 1)

instance : NumberText DecimalFraction where
  message := text
  document x := some x.text
  configuration := text
  fixed _ := text
  ofDecimal? m k := some (ofDigits m k)

/-! ### Texts -/

lemma value_ofDigits_neg (m k : ℕ) : (ofDigits m (-k)).value = m / 10 ^ k := by
  cases k with
  | zero => simp [ofDigits]
  | succ k => rfl

/-- The text of a number spells its digits and the place of its point. -/
lemma signed?_text (x : DecimalFraction) : signed? x.text.toList
    = some (⟨decide (x.numerator < 0), x.numerator.natAbs, -x.places, false⟩, []) := by
  have hexponent : ∀ c ∈ ('e' :: '-' :: Nat.toDigits 10 x.places).head?, c.isDigit = false := by
    simp
  have hplaces : digits (Nat.toDigits 10 x.places) = (Nat.toDigits 10 x.places, []) :=
    digits_all fun c hc => isDigit_of_mem_toDigits hc
  rw [text, String.toList_ofList, Numeral.signed?_wholeText_append,
    numeral?_toDigits_append _ _ hexponent, fraction?_of_head (by simp)]
  simp [exponent?, hplaces, Nat.toDigits_ne_nil, digitsValue_toDigits]

instance : LawfulNumberText DecimalFraction where
  spells x s hs := by
    obtain rfl := Option.some.inj hs
    exact ⟨_, signed?_text x, rfl⟩
  reads_back x _ := by
    refine ⟨_, _, rfl, signed?_text x, ?_⟩
    have hvalue := value_ofDigits_neg x.numerator.natAbs x.places
    change (some (ofDigits x.numerator.natAbs (-x.places))).map _ = some x
    refine congrArg some (DecimalFraction.ext ?_)
    by_cases hx : x.numerator < 0
    · have hnumerator : ((x.numerator.natAbs : ℕ) : ℚ) = -x.numerator := by
        rw [← Int.cast_natCast, Int.ofNat_natAbs_of_nonpos hx.le, Int.cast_neg]
      rw [decide_eq_true hx]
      change -(ofDigits _ _).value = x.value
      rw [hvalue, hnumerator, x.value_eq]
      ring
    · have hnumerator : ((x.numerator.natAbs : ℕ) : ℚ) = x.numerator := by
        rw [← Int.cast_natCast, Int.natAbs_of_nonneg (by omega)]
      rw [decide_eq_false hx]
      change (ofDigits _ _).value = x.value
      rw [hvalue, hnumerator, ← x.value_eq]

/-! ### Laws -/

variable {x y : DecimalFraction}

lemma le_iff : Scalar.le x y = true ↔ x.value ≤ y.value := decide_eq_true_iff

lemma lt_iff : Scalar.lt x y = true ↔ x.value < y.value := decide_eq_true_iff

lemma value_tenths (n : ℕ) :
    (OfScientific.ofScientific n true 1 : DecimalFraction).value = n / 10 := by
  change (n : ℚ) / 10 ^ 1 = n / 10
  rw [pow_one]

lemma cast_tenths (n : ℕ) :
    ((OfScientific.ofScientific n true 1 : DecimalFraction).value : ℝ) = n / 10 := by
  rw [value_tenths]
  push_cast
  rfl

lemma value_div_count (m n : ℕ) :
    (Scalar.ofCount m / Scalar.ofCount n : DecimalFraction).value = quotient m n := rfl

lemma quotient_nonneg {p q : ℚ} (hp : 0 ≤ p) (hq : 0 ≤ q) : 0 ≤ quotient p q := by
  have hfloor : (0 : ℤ) ≤ ⌊p / q * 10 ^ 16⌋ := Int.floor_nonneg.2 (by positivity)
  rw [quotient]
  positivity

lemma quotient_le_one {p q : ℚ} (h : p / q ≤ 1) : quotient p q ≤ 1 := by
  have hfloor : (⌊p / q * 10 ^ 16⌋ : ℚ) ≤ p / q * 10 ^ 16 := Int.floor_le _
  rw [quotient, div_le_one (by positivity)]
  calc (⌊p / q * 10 ^ 16⌋ : ℚ) ≤ p / q * 10 ^ 16 := hfloor
    _ ≤ 1 * 10 ^ 16 := by gcongr
    _ = 10 ^ 16 := one_mul _

instance : ExactCounts DecimalFraction where
  countsTo limit := {
    isFinite_div := fun _ _ _ => rfl
    div_nonneg := fun _ _ _ => by
      rw [le_iff, value_tenths, value_div_count]
      simpa using quotient_nonneg (Nat.cast_nonneg _) (Nat.cast_nonneg _)
    div_le_one := fun h _ _ => by
      rw [le_iff, value_tenths, value_div_count]
      have hone := quotient_le_one (div_le_one_of_le₀ (Nat.cast_le.2 h) (Nat.cast_nonneg _))
      norm_num
      exact hone }
  reads _ := ⟨_, rfl, rfl⟩

instance : FiniteReading DecimalFraction where
  reads _ := ExactCounts.reads _

instance : LawfulScalar DecimalFraction where
  le_of_not_lt _ _ h := by
    rw [← Bool.not_eq_true, lt_iff, not_lt] at h
    exact le_iff.2 h
  lt_of_not_le _ _ h := by
    rw [← Bool.not_eq_true, le_iff, not_le] at h
    exact lt_iff.2 h
  isNaN_of_isFinite _ := rfl
  isFinite_of_le_of_le _ _ _ _ := rfl
  isFinite_tenths _ := rfl
  le_tenths h _ := by
    rw [le_iff, value_tenths, value_tenths]
    gcongr
  countsTo _ := ExactCounts.countsTo _
  isNaN_sub _ _ := rfl
  isNaN_div _ _ _ := rfl
  isNaN_of_sub _ := rfl
  isNaN_of_div _ := ⟨rfl, rfl⟩
  sqrt_nonneg {x} _ := by
    rw [le_iff, value_tenths]
    change ((0 : ℕ) : ℚ) / 10 ≤ ((⌊x.value⌋.toNat.sqrt : ℕ) : ℚ)
    rw [Nat.cast_zero, zero_div]
    exact Nat.cast_nonneg _
  abs_pos {x} _ h := by
    have hne : x.value ≠ (0.0 : DecimalFraction).value := of_decide_eq_false h
    rw [value_tenths, Nat.cast_zero, zero_div] at hne
    rw [lt_iff, value_tenths, Nat.cast_zero, zero_div]
    exact abs_pos.2 hne
  div_nonneg {x y} _ hx hy := by
    rw [le_iff, value_tenths, Nat.cast_zero, zero_div] at hx ⊢
    rw [lt_iff, value_tenths, Nat.cast_zero, zero_div] at hy
    exact quotient_nonneg hx hy.le
  one_sub_le {x} hx := by
    rw [le_iff, value_tenths, Nat.cast_zero, zero_div] at hx
    exact le_iff.2 (sub_le_self _ hx)
  wholePart_lt x := (Nat.min_le_right _ _).trans_lt (by decide)
  nearest_lt x := (Nat.min_le_right _ _).trans_lt (by decide)

instance : ExactScalar DecimalFraction where
  value x := x.value
  isFinite_add _ _ := rfl
  isFinite_sub _ _ := rfl
  isFinite_mul _ _ := rfl
  value_add _ _ := Rat.cast_add _ _
  value_sub _ _ := Rat.cast_sub _ _
  value_mul _ _ := Rat.cast_mul _ _
  value_tenths := cast_tenths
  le_iff _ _ := le_iff.trans Rat.cast_le.symm
  lt_iff _ _ := lt_iff.trans Rat.cast_lt.symm

end DecimalFraction

end HouseStyle
