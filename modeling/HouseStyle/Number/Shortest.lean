import HouseStyle.Count

/-!
# The shortest decimal that reads back

A finite binary number `m * 2 ^ q` is the nearest one of its format for a whole interval of
decimals.  Of these the shortest is written: the fewest digits, and of the candidates with so
many digits the nearest.  For each number of digits only the two neighbours of the value on
that grid can be candidates, so the search tries 1, 2, …, 17 digits and stops at the first
neighbour inside the interval.  All comparisons are between natural numbers.
-/

namespace HouseStyle

/-- A positive decimal `digits * 10 ^ exponent`. -/
structure Decimal where
  /-- The digits, read as one number. -/
  digits : Nat
  /-- The power of ten of the last digit. -/
  exponent : Int
deriving DecidableEq, Repr

/-- A positive binary number `mantissa * 2 ^ exponent` and whether the next smaller number of
its format is only half as far away as the next larger one. -/
structure Binary where
  /-- The mantissa. -/
  mantissa : Nat
  /-- The power of two. -/
  exponent : Int
  /-- Whether the gap below is half the gap above. -/
  narrowBelow : Bool
deriving DecidableEq, Repr

/-- Which of two equally near candidates is taken. -/
inductive Tie where
  /-- The larger one. -/
  | up
  /-- The one with an even last digit. -/
  | toEven
deriving DecidableEq, Repr

/-- The quotient rounded to the nearest natural number, a half going to the even neighbour. -/
def roundDiv (num den : Nat) : Nat :=
  let q := num / den
  let r := 2 * (num % den)
  if r < den then q else if den < r then q + 1 else if q % 2 = 0 then q else q + 1

namespace Binary

/-- The magnitude of the bits of a number, for the 64 bit format; `none` for zero, for the
infinities and for results without a value. -/
def ofBits? (bits : Nat) : Option Binary :=
  let fraction : Nat := bits % Count.wordSize 52
  let power : Nat := bits / Count.wordSize 52 % Count.wordSize 11
  if power = 2047 then none
  else if power = 0 then
    if fraction = 0 then none else some ⟨fraction, -1074, false⟩
  else some ⟨fraction + Count.wordSize 52, (power : Int) - 1075, decide (fraction = 0 ∧ 1 < power)⟩

/-- `n * 2 ^ two * 10 ^ ten` as a numerator over a denominator. -/
def scaled (n : Nat) (two ten : Int) : Nat × Nat :=
  (n * Nat.pow 2 two.toNat * Nat.pow 10 ten.toNat,
    Nat.pow 2 (-two).toNat * Nat.pow 10 (-ten).toNat)

/-- The numerator and denominator of the value. -/
def fraction (x : Binary) : Nat × Nat := scaled x.mantissa x.exponent 0

/-- The power of ten of the leading digit of a positive quotient. -/
def leadingPower (num den : Nat) : Int :=
  if den ≤ num then ((Nat.toDigits 10 (num / den)).length : Int) - 1
  else -((Nat.toDigits 10 (den / num)).length : Int)

/-- Whether the decimal `d * 10 ^ k` reads back as `x`: it lies between the midpoints to the
two neighbours of `x`, which themselves count when the mantissa is even. -/
def readsBack (x : Binary) (d : Nat) (k : Int) : Bool :=
  let low := 4 * x.mantissa - (if x.narrowBelow then 1 else 2)
  let high := 4 * x.mantissa + 2
  let (point, scale) := scaled d (2 - x.exponent) k
  if x.mantissa % 2 = 0 then low * scale ≤ point && point ≤ high * scale
  else low * scale < point && point < high * scale

/-- The nearest candidate on the grid of step `10 ^ k`, if one of the two neighbours of the
value reads back. -/
def onGrid? (tie : Tie) (x : Binary) (k : Int) : Option Nat :=
  let (num, den) := scaled x.mantissa x.exponent (-k)
  let d := num / den
  match x.readsBack d k && decide (0 < d), x.readsBack (d + 1) k with
  | true, false => some d
  | false, true => some (d + 1)
  | true, true =>
    let twice := 2 * num
    let middle := (2 * d + 1) * den
    if twice < middle then some d
    else if middle < twice then some (d + 1)
    else match tie with
      | .up => some (d + 1)
      | .toEven => some (if d % 2 = 0 then d else d + 1)
  | false, false => none

/-- The first grid with a candidate, trying `count` more grids, each ten times finer. -/
def search (tie : Tie) (x : Binary) : (count : Nat) → (k : Int) → Decimal
  | 0, k => ⟨x.mantissa, k⟩
  | count + 1, k =>
    match x.onGrid? tie k with
    | some d => ⟨d, k⟩
    | none => search tie x count (k - 1)

end Binary

namespace Decimal

/-- Drop the zeros at the end of the digits, at most `count` of them. -/
def dropZeros : (count : Nat) → Decimal → Decimal
  | 0, x => x
  | count + 1, x =>
    if x.digits ≠ 0 ∧ x.digits % 10 = 0 then dropZeros count ⟨x.digits / 10, x.exponent + 1⟩ else x

/-- The shortest decimal that reads back as `x`; of two equally near ones `tie` chooses. -/
def shortest (tie : Tie) (x : Binary) : Decimal :=
  let (num, den) := x.fraction
  dropZeros 20 (x.search tie 17 (Binary.leadingPower num den))

/-- The power of ten of the leading digit. -/
def power (x : Decimal) : Int :=
  (Nat.toDigits 10 x.digits).length - 1 + x.exponent

/-- The nearest 64 bit number of `m * 10 ^ k`, or `none` beyond the largest one.  Where the
power alone decides, no large power is computed. -/
def nearestFloat? (m : Nat) (k : Int) : Option Float :=
  if m = 0 then some 0.0
  else
    let leading := ((Nat.toDigits 10 m).length : Int) + k
    if 310 < leading then none
    else if leading < -400 then some 0.0
    else
      let x := Float.ofScientific m (decide (k < 0)) k.natAbs
      if x.isFinite then some x else none

end Decimal

end HouseStyle
