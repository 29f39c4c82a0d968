import HouseStyle.Number.Text
import HouseStyle.Profile.Strictness
import Mathlib.Tactic.Common

/-!
# Laws of the numbers in which is computed

What the formulas of the library promise does not depend on how exactly numbers are computed, but
on a few laws (`LawfulScalar`): numbers with a value are ordered, whatever lies between finite
numbers is finite, the quotients of counts are finite, and an operation gives no value where one of
its arguments has none.  A formula that cuts off its result at two bounds keeps to them whatever it
is given; nothing is asked of the exponential function.

Binary numbers obey the laws too, so nothing is said here of counts that do not fit into 64 bits.
Where arithmetic is exact there is no such bound (`ExactCounts`).
-/

namespace HouseStyle

/-- Whether counts up to a limit are divided as they should be. -/
structure Scalar.CountsTo (α : Type) [Scalar α] (limit : Nat) : Prop where
  /-- The quotient of two counts is finite. -/
  isFinite_div : ∀ {m n : Nat}, m ≤ limit → 0 < n → n ≤ limit →
    isFinite (ofCount m / ofCount n : α) = true
  /-- The quotient of two counts is not negative. -/
  div_nonneg : ∀ {m n : Nat}, m ≤ limit → 0 < n → n ≤ limit →
    le (0.0 : α) (ofCount m / ofCount n) = true
  /-- The quotient of a count and one that is not less is at most 1. -/
  div_le_one : ∀ {m n : Nat}, m ≤ n → 0 < n → n ≤ limit →
    le (ofCount m / ofCount n) (1.0 : α) = true

/-- Whether the whole number that a label spells is read as a finite one. -/
def NumberText.Reads (α : Type) [Scalar α] [NumberText α] (n : Nat) : Prop :=
  ∃ x : α, ofDecimal? n 0 = some x ∧ Scalar.isFinite x = true

/-- The laws of the numbers in which is computed. -/
class LawfulScalar (α : Type) [Scalar α] : Prop where
  /-- Of two numbers with a value the one that is not below the other is at least as great. -/
  le_of_not_lt : ∀ {x y : α}, Scalar.isNaN x = false → Scalar.isNaN y = false →
    Scalar.lt x y = false → Scalar.le y x = true
  /-- Of two numbers with a value the one that is not at most the other is greater. -/
  lt_of_not_le : ∀ {x y : α}, Scalar.isNaN x = false → Scalar.isNaN y = false →
    Scalar.le x y = false → Scalar.lt y x = true
  /-- A finite number has a value. -/
  isNaN_of_isFinite : ∀ {x : α}, Scalar.isFinite x = true → Scalar.isNaN x = false
  /-- A number between finite numbers is finite. -/
  isFinite_of_le_of_le : ∀ {x y z : α}, Scalar.isFinite x = true → Scalar.isFinite z = true →
    Scalar.le x y = true → Scalar.le y z = true → Scalar.isFinite y = true
  /-- A small number that is written with one place is finite. -/
  isFinite_tenths : ∀ {n : Nat}, n ≤ 100 →
    Scalar.isFinite (OfScientific.ofScientific n true 1 : α) = true
  /-- Small numbers that are written with one place are ordered as they are written. -/
  le_tenths : ∀ {m n : Nat}, m ≤ n → n ≤ 20 → Scalar.le (OfScientific.ofScientific m true 1 : α)
    (OfScientific.ofScientific n true 1) = true
  /-- Counts of at most 64 bits are divided as they should be. -/
  countsTo : ∀ {n : Nat}, n < Count.wordSize 64 → Scalar.CountsTo α n
  /-- A number with a value can be taken from a finite one. -/
  isNaN_sub : ∀ {x y : α}, Scalar.isFinite x = true → Scalar.isNaN y = false →
    Scalar.isNaN (x - y) = false
  /-- A number with a value can be divided by a positive finite one. -/
  isNaN_div : ∀ {x y : α}, Scalar.isNaN x = false → Scalar.isFinite y = true →
    Scalar.lt 0.0 y = true → Scalar.isNaN (x / y) = false
  /-- A difference with a value is taken from a number with a value. -/
  isNaN_of_sub : ∀ {x y : α}, Scalar.isNaN (x - y) = false → Scalar.isNaN y = false
  /-- A quotient with a value is one of numbers with a value. -/
  isNaN_of_div : ∀ {x y : α}, Scalar.isNaN (x / y) = false →
    Scalar.isNaN x = false ∧ Scalar.isNaN y = false
  /-- A square root with a value is not negative. -/
  sqrt_nonneg : ∀ {x : α}, Scalar.isNaN (Scalar.sqrt x) = false →
    Scalar.le 0.0 (Scalar.sqrt x) = true
  /-- The absolute value of a number other than 0 is positive if it has a value. -/
  abs_pos : ∀ {x : α}, Scalar.isNaN (Scalar.abs x) = false → Scalar.same x 0.0 = false →
    Scalar.lt 0.0 (Scalar.abs x) = true
  /-- A quotient of a number that is not negative and a positive one is not negative. -/
  div_nonneg : ∀ {x y : α}, Scalar.isNaN (x / y) = false → Scalar.le 0.0 x = true →
    Scalar.lt 0.0 y = true → Scalar.le 0.0 (x / y) = true
  /-- One less a number that is not negative is at most 1. -/
  one_sub_le : ∀ {x : α}, Scalar.le 0.0 x = true → Scalar.le (1.0 - x) 1.0 = true
  /-- A whole part fits into 64 bits. -/
  wholePart_lt : ∀ x : α, Scalar.wholePart x < Count.wordSize 64
  /-- A nearest whole number fits into 64 bits. -/
  nearest_lt : ∀ x : α, Scalar.nearest x < Count.wordSize 64

/-- The whole numbers that labels spell are read as finite numbers. -/
class FiniteReading (α : Type) [Scalar α] [NumberText α] : Prop where
  /-- A whole number of at most 64 bits is read as a finite one. -/
  reads : ∀ {n : Nat}, n < Count.wordSize 64 → NumberText.Reads α n

/-- Whether counts are divided and read as they should be, however great they are. -/
class ExactCounts (α : Type) [Scalar α] [NumberText α] : Prop where
  countsTo : ∀ n : Nat, Scalar.CountsTo α n
  reads : ∀ n : Nat, NumberText.Reads α n

variable {α : Type} [Scalar α]

/-- Whether counts with a property are divided and read as they should be. -/
structure Scalar.Handles (α : Type) [Scalar α] [NumberText α] (fits : Nat → Prop) : Prop where
  countsTo : ∀ {n : Nat}, fits n → CountsTo α n
  reads : ∀ {n : Nat}, fits n → NumberText.Reads α n

lemma Scalar.handles_lt [NumberText α] [LawfulScalar α] [FiniteReading α] :
    Handles α (· < Count.wordSize 64) :=
  ⟨LawfulScalar.countsTo, FiniteReading.reads⟩

lemma Scalar.handles_all [NumberText α] [ExactCounts α] : Handles α fun _ => True :=
  ⟨fun _ => ExactCounts.countsTo _, fun _ => ExactCounts.reads _⟩

/-- A finite number in the interval from `low` to `high`. -/
structure Scalar.FiniteWithin (low high x : α) : Prop where
  isFinite : Scalar.isFinite x = true
  within : Scalar.within low high x = true

namespace Scalar

open LawfulScalar

variable [LawfulScalar α]

lemma finiteWithin_of_le {low high x : α} (hlow : isFinite low = true)
    (hhigh : isFinite high = true) (h : le low x = true) (h' : le x high = true) :
    FiniteWithin low high x :=
  ⟨isFinite_of_le_of_le hlow hhigh h h', by rw [Scalar.within, h, h']; rfl⟩

/-- What lies between two numbers with one place is finite. -/
lemma finiteWithin_of_within {m n : Nat} {x : α} (hm : m ≤ 100) (hn : n ≤ 100)
    (h : within (OfScientific.ofScientific m true 1 : α) (OfScientific.ofScientific n true 1) x
      = true) :
    FiniteWithin (OfScientific.ofScientific m true 1) (OfScientific.ofScientific n true 1) x := by
  obtain ⟨hlow, hhigh⟩ := Bool.and_eq_true_iff.1 h
  exact finiteWithin_of_le (isFinite_tenths hm) (isFinite_tenths hn) hlow hhigh

/-- A number with one place lies between two others. -/
lemma finiteWithin_tenths {l m n : Nat} (h : l ≤ m) (h' : m ≤ n) (hn : n ≤ 20) :
    FiniteWithin (OfScientific.ofScientific l true 1 : α) (OfScientific.ofScientific n true 1)
      (OfScientific.ofScientific m true 1) :=
  finiteWithin_of_le (isFinite_tenths (by omega)) (isFinite_tenths (by omega))
    (le_tenths h (by omega)) (le_tenths h' hn)

lemma finiteWithin_zero : FiniteWithin (0.0 : α) 1.0 0.0 :=
  finiteWithin_tenths (Nat.le_refl 0) (by decide) (by decide)

lemma finiteWithin_half : FiniteWithin (0.0 : α) 1.0 0.5 :=
  finiteWithin_tenths (by decide) (by decide) (by decide)

lemma finiteWithin_one : FiniteWithin (0.0 : α) 1.0 1.0 :=
  finiteWithin_tenths (by decide) (Nat.le_refl 10) (by decide)

/-- Cutting off at two bounds keeps to them. -/
lemma finiteWithin_clamp {low high x : α} (hlow : FiniteWithin low high low)
    (hhigh : FiniteWithin low high high) (hx : isNaN x = false) :
    FiniteWithin low high (clamp low high x) := by
  rw [clamp]
  split
  · exact hlow
  next hbelow =>
    split
    · exact hhigh
    next habove =>
      rw [Bool.not_eq_true] at hbelow habove
      exact finiteWithin_of_le hlow.isFinite hhigh.isFinite
        (le_of_not_lt hx (isNaN_of_isFinite hlow.isFinite) hbelow)
        (le_of_not_lt (isNaN_of_isFinite hhigh.isFinite) hx habove)

/-- Cutting off in the unit interval gives something in it, whatever is cut off. -/
lemma finiteWithin_clampUnit (x : α) : FiniteWithin 0.0 1.0 (clampUnit x) := by
  rw [clampUnit]
  split
  · exact finiteWithin_zero
  next hx => exact finiteWithin_clamp finiteWithin_zero finiteWithin_one (by simpa using hx)

lemma isFinite_share {part whole : Nat} (hpart : CountsTo α part) (hwhole : CountsTo α whole) :
    isFinite (share part whole : α) = true := by
  rw [share]
  split
  · exact isFinite_tenths (by decide)
  · rcases Nat.le_total part whole with h | h
    · exact hwhole.isFinite_div h (by omega) (Nat.le_refl _)
    · exact hpart.isFinite_div (Nat.le_refl _) (by omega) h

/-- A share lies in the unit interval. -/
lemma finiteWithin_share {part whole : Nat} (h : part ≤ whole) (hwhole : CountsTo α whole) :
    FiniteWithin (0.0 : α) 1.0 (share part whole) := by
  rw [share]
  split
  · exact finiteWithin_zero
  · exact finiteWithin_of_le (isFinite_tenths (by decide)) (isFinite_tenths (by decide))
      (hwhole.div_nonneg h (by omega) (Nat.le_refl _))
        (hwhole.div_le_one h (by omega) (Nat.le_refl _))

omit [LawfulScalar α] in
lemma isFinite_larger {x y : α} (hx : isFinite x = true) (hy : isFinite y = true) :
    isFinite (larger x y) = true := by
  rw [larger]
  split_ifs <;> assumption

omit [LawfulScalar α] in
lemma isFinite_smaller {x y : α} (hx : isFinite x = true) (hy : isFinite y = true) :
    isFinite (smaller x y) = true := by
  rw [smaller]
  split_ifs <;> assumption

end Scalar

namespace Strictness

open LawfulScalar Scalar

variable [LawfulScalar α]

/-- A strictness that is cut off at a least one keeps to its bounds, whatever is cut off. -/
lemma finiteWithin_clamp {n : Nat} (hn : n ≤ 10) (x : α) :
    FiniteWithin (OfScientific.ofScientific n true 1) greatest
      (clamp (OfScientific.ofScientific n true 1) x) := by
  have hleast : FiniteWithin (OfScientific.ofScientific n true 1 : α) greatest
      (OfScientific.ofScientific n true 1) :=
    finiteWithin_tenths (Nat.le_refl n) hn (by decide)
  rw [clamp]
  split
  · exact hleast
  next hx =>
    exact Scalar.finiteWithin_clamp hleast (finiteWithin_tenths hn (Nat.le_refl 10) (by decide))
      (by simpa using hx)

end Strictness

end HouseStyle
