/-!
# The numbers in which shares, averages and strictness are computed

Confidence, consistency, maturity and strictness are small formulas over fractions.  They are
written once, over any type with the operations of `Scalar`, and run on `Float`.  Read over
the real numbers the same formulas say what the program computes up to rounding, so a
statement about exact arithmetic is a statement about the definitions that run.
-/

namespace HouseStyle

/-- A type of numbers with what the formulas of the library need. -/
class Scalar (α : Type) extends Add α, Sub α, Mul α, Div α, Neg α, OfScientific α where
  /-- The number of a count. -/
  ofCount : Nat → α
  /-- Whether the first number is at most the second. -/
  le : α → α → Bool
  /-- Whether the first number is below the second. -/
  lt : α → α → Bool
  /-- Whether two numbers are equal. -/
  same : α → α → Bool
  /-- The exponential function. -/
  exp : α → α
  /-- The square root. -/
  sqrt : α → α
  /-- The absolute value. -/
  abs : α → α
  /-- Whether a result has no value. -/
  isNaN : α → Bool
  /-- Whether a result is a number of the line, neither infinite nor without a value. -/
  isFinite : α → Bool
  /-- The whole part, 0 below 0 and without a value, and at most `2 ^ 64 - 1`. -/
  wholePart : α → Nat
  /-- The nearest whole number, a half going away from 0, with the bounds of `wholePart`. -/
  nearest : α → Nat

instance : Scalar Float where
  ofCount := Float.ofNat
  le a b := decide (a ≤ b)
  lt a b := decide (a < b)
  same a b := a == b
  exp := Float.exp
  sqrt := Float.sqrt
  abs := Float.abs
  isNaN := Float.isNaN
  isFinite := Float.isFinite
  wholePart x := x.toUInt64.toNat
  nearest x := x.round.toUInt64.toNat

namespace Scalar

variable {α : Type} [Scalar α]

/-- The larger of two numbers; one without a value gives way to the other. -/
def larger (a b : α) : α :=
  if isNaN a then b else if isNaN b then a else if lt a b then b else a

/-- The smaller of two numbers; one without a value gives way to the other. -/
def smaller (a b : α) : α :=
  if isNaN a then b else if isNaN b then a else if lt b a then b else a

/-- The nearest point of the interval from `low` to `high`. -/
def clamp (low high x : α) : α :=
  if lt x low then low else if lt high x then high else x

/-- Whether a number lies in the interval from `low` to `high`, ends included. -/
def within (low high x : α) : Bool :=
  le low x && le x high

/-- The sum of a list, added from left to right to a negative zero. -/
def sum (xs : List α) : α :=
  xs.foldl (· + ·) (-(0.0 : α))

/-- The mean of a list. -/
def mean (xs : List α) : α :=
  sum xs / ofCount xs.length

/-- The quotient of two counts, 0 when there is nothing to divide by. -/
def share (part whole : Nat) : α :=
  if whole = 0 then 0.0 else ofCount part / ofCount whole

/-- Clamp into the unit interval; 0 for a result without a value. -/
def clampUnit (x : α) : α :=
  if isNaN x then 0.0 else clamp 0.0 1.0 x

end Scalar

end HouseStyle
