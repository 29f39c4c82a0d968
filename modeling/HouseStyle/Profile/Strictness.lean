import HouseStyle.Number.Scalar

/-!
# Strictness

How strictly rules are enforced is a number up to 1.  Each kind of result has its own least
strictness, and adjustments are cut off at these bounds.
-/

namespace HouseStyle.Strictness

variable {α : Type} [Scalar α]

/-- The least strictness for one language. -/
def least : α := 0.1

/-- The least strictness for a whole project. -/
def leastUnified : α := 0.3

/-- The greatest strictness. -/
def greatest : α := 1.0

/-- Keep a strictness within its bounds; without a value it is the least one. -/
def clamp (low x : α) : α := if Scalar.isNaN x then low else Scalar.clamp low greatest x

/-- Move from one strictness towards another one by a share of the way. -/
def blend (rate previous fresh : α) : α := previous + rate * (fresh - previous)

end HouseStyle.Strictness
