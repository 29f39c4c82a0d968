/-!
# Counts

Everything that is counted is a natural number; where a count is stored it has to fit into a
word of a number of bits.
-/

namespace HouseStyle.Count

/-- The sum of some counts. -/
def sum : List Nat → Nat
  | [] => 0
  | n :: ns => n + sum ns

@[simp] theorem sum_nil : sum [] = 0 := rfl

@[simp] theorem sum_cons (n : Nat) (ns : List Nat) : sum (n :: ns) = n + sum ns := rfl

theorem sum_append (ms ns : List Nat) : sum (ms ++ ns) = sum ms + sum ns := by
  induction ms with
  | nil => simp
  | cons m ms ih => rw [List.cons_append, sum_cons, sum_cons, ih, Nat.add_assoc]

/-- How many numbers a word of some bits can hold. -/
def wordSize (bits : Nat) : Nat := Nat.pow 2 bits

end HouseStyle.Count
