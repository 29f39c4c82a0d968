import HouseStyle.Number.Text

/-!
# Reading a number from a label

The label of an indentation step is the number of columns.  A label that spells a number is an
optional sign and either one of the words for an infinite or missing value or digits, with an
optional point among them and an optional exponent after them.
-/

namespace HouseStyle.Number

/-- What a label spells. -/
inductive Spelled where
  /-- `mantissa * 10 ^ exponent`. -/
  | finite (mantissa : Nat) (exponent : Int)
  /-- An infinite number. -/
  | infinite
  /-- A number without a value. -/
  | undefined
deriving DecidableEq, Repr

/-- The number that digits denote. -/
def ofDigits (ds : List Char) : Nat := ds.foldl (fun n d => n * 10 + (d.toNat - 48)) 0

/-- An optional sign: whether it is a minus, and what follows. -/
def sign : List Char → Bool × List Char
  | '-' :: rest => (true, rest)
  | '+' :: rest => (false, rest)
  | rest => (false, rest)

/-- The exponent at the end of a number. -/
def exponent? : List Char → Option Int
  | [] => some 0
  | c :: rest =>
    if c = 'e' ∨ c = 'E' then
      let (negative, ds) := sign rest
      if ds.isEmpty || !ds.all Char.isDigit then none
      else some (if negative then -(ofDigits ds : Int) else ofDigits ds)
    else none

/-- What a text without a sign spells. -/
def unsigned? (cs : List Char) : Option Spelled :=
  let word := String.ofList (cs.map Char.toLower)
  if word == "inf" || word == "infinity" then some .infinite
  else if word == "nan" then some .undefined
  else
    let whole := cs.takeWhile Char.isDigit
    let rest := cs.dropWhile Char.isDigit
    let (places, rest) := match rest with
      | '.' :: rest => (rest.takeWhile Char.isDigit, rest.dropWhile Char.isDigit)
      | rest => ([], rest)
    if whole.isEmpty && places.isEmpty then none
    else (exponent? rest).map fun e => .finite (ofDigits (whole ++ places)) (e - places.length)

/-- The number that a spelling stands for; one beyond the largest number is infinite. -/
def Spelled.value {α : Type} [Scalar α] [NumberText α] : Spelled → α
  | finite m k => (NumberText.ofDecimal? m k).getD (1.0 / 0.0)
  | infinite => 1.0 / 0.0
  | undefined => 0.0 / 0.0

/-- The number that a label spells. -/
def ofLabel? {α : Type} [Scalar α] [NumberText α] (label : String) : Option α :=
  let (negative, rest) := sign label.toList
  (unsigned? rest).map fun x => if negative then -x.value else x.value

end HouseStyle.Number
