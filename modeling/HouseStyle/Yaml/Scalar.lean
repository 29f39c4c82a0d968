import HouseStyle.Count
import HouseStyle.Number.Reading

/-!
# What a scalar reads as

A scalar without quotes may read as nothing, as a flag or as a number.  A whole number may have
a base, and digits that start with a needless zero are no number.
-/

namespace HouseStyle.Yaml

/-- Whether a text reads as nothing. -/
def readsNull (s : String) : Bool := ["", "null", "Null", "NULL", "~"].contains s

/-- The flag that a text reads as. -/
def readsFlag? (s : String) : Option Bool :=
  if ["true", "True", "TRUE"].contains s then some true
  else if ["false", "False", "FALSE"].contains s then some false
  else none

/-- Whether a text is digits that start with a needless zero, which is no number. -/
def paddedDigits (cs : List Char) : Bool :=
  let cs := (Number.sign cs).2
  1 < cs.length && cs.head? == some '0' && cs.all Char.isDigit

/-- The digits of a number after the mark of its base. -/
def baseDigits? (cs : List Char) : Option (Nat × List Char) :=
  match cs with
  | '0' :: 'x' :: rest => some (16, rest)
  | '0' :: 'o' :: rest => some (8, rest)
  | '0' :: 'b' :: rest => some (2, rest)
  | _ => none

/-- The value of a digit. -/
def digitValue (c : Char) : Nat :=
  if c.isDigit then c.toNat - 48 else if c.isUpper then c.toNat - 55 else c.toNat - 87

/-- The number that digits of a base denote. -/
def ofBase? (base : Nat) (cs : List Char) : Option Nat :=
  if cs.isEmpty || !cs.all (fun c => c.isAlphanum && digitValue c < base) then none
  else some (cs.foldl (fun n c => n * base + digitValue c) 0)

/-- The natural number that a text without a sign reads as. -/
def readsNat? (cs : List Char) : Option Nat :=
  match (baseDigits? cs).bind fun b => ofBase? b.1 b.2 with
  | some n => some n
  | none => if paddedDigits cs then none else ofBase? 10 cs

/-- The count that a text reads as, if it is below `2 ^ 64`. -/
def readsCount? (s : String) : Option Nat := do
  let cs := match s.toList with
    | '+' :: rest => rest
    | cs => cs
  let n ← readsNat? cs
  guard (n < Count.wordSize 64)
  pure n

/-- The number that a text reads as. -/
def readsReal? {α : Type} [Scalar α] [NumberText α] (s : String) : Option α :=
  let (negative, rest) := Number.sign s.toList
  let word := String.ofList rest
  let signed (x : α) : α := if negative then -x else x
  if [".inf", ".Inf", ".INF"].contains word then some (signed (1.0 / 0.0))
  else if [".nan", ".NaN", ".NAN"].contains s then some (0.0 / 0.0)
  else match Number.unsigned? rest with
    | some (.finite m k) => (NumberText.ofDecimal? m k).map signed
    | _ => none

/-- Whether a text reads as a number. -/
def readsNumber (s : String) : Bool :=
  (readsNat? (Number.sign s.toList).2).isSome
    || (!paddedDigits s.toList && (readsReal? s : Option Float).isSome)

/-- Whether a text reads as something else than a text. -/
def readsOther (s : String) : Bool :=
  readsNull s || (readsFlag? s).isSome || readsNumber s

end HouseStyle.Yaml
