import HouseStyle.Count
import HouseStyle.Number.Scalar
import HouseStyle.Number.Shortest

/-!
# How numbers are written and read

Three texts of a number occur in the output.  All of them use the shortest digits that read
back; they differ in where an exponent begins, in whether a whole number keeps its point, and
in the signs.  These decisions are the fields of a `DigitForm`.  A fourth text has a fixed
number of places and rounds the exact value.
-/

namespace HouseStyle

/-- The decisions of a way to write the shortest digits of a number. -/
structure DigitForm where
  /-- Which of two equally near candidates is written. -/
  tie : Tie
  /-- The least and greatest power of the leading digit that is written without an exponent;
  `none` when there never is an exponent. -/
  positional : Option (Int × Int)
  /-- Whether a whole number keeps a point and a zero. -/
  wholePoint : Bool
  /-- Whether a positive exponent has a sign. -/
  exponentSign : Bool

namespace DigitForm

/-- Numbers inside messages: never an exponent, and whole numbers have no point. -/
def message : DigitForm := ⟨.up, none, false, false⟩

/-- Numbers of a saved document: no exponent from `1e-5` up to below `1e16`, and always a
point or an exponent. -/
def document : DigitForm := ⟨.toEven, some (-5, 15), true, true⟩

/-- Numbers of a configuration file: as in a document, but a positive exponent has no sign. -/
def configuration : DigitForm := ⟨.toEven, some (-5, 15), true, false⟩

/-- Digits with the point after the place of `10 ^ 0`. -/
def positionalText (form : DigitForm) (x : Decimal) : List Char :=
  let ds := Nat.toDigits 10 x.digits
  if 0 ≤ x.exponent then
    ds ++ List.replicate x.exponent.toNat '0' ++ (if form.wholePoint then ['.', '0'] else [])
  else
    let places := (-x.exponent).toNat
    if places < ds.length then ds.take (ds.length - places) ++ '.' :: ds.drop (ds.length - places)
    else '0' :: '.' :: List.replicate (places - ds.length) '0' ++ ds

/-- Digits with the point after the first one, and an exponent. -/
def exponentText (form : DigitForm) (x : Decimal) : List Char :=
  let ds := Nat.toDigits 10 x.digits
  let tail := ds.drop 1
  let sign := if x.power < 0 then ['-'] else if form.exponentSign then ['+'] else []
  ds.take 1 ++ (if tail.isEmpty then [] else '.' :: tail) ++ 'e' :: sign
    ++ Nat.toDigits 10 x.power.natAbs

/-- The text of a positive decimal. -/
def decimalText (form : DigitForm) (x : Decimal) : List Char :=
  match form.positional with
  | none => form.positionalText x
  | some (least, greatest) =>
    if least ≤ x.power ∧ x.power ≤ greatest then form.positionalText x else form.exponentText x

/-- The text of a finite number. -/
def text (form : DigitForm) (x : Float) : List Char :=
  let bits := x.toBits.toNat
  let sign := if bits / Count.wordSize 63 = 1 then ['-'] else []
  match Binary.ofBits? bits with
  | some b => sign ++ form.decimalText (Decimal.shortest form.tie b)
  | none => sign ++ (if form.wholePoint then ['0', '.', '0'] else ['0'])

end DigitForm

/-- A number with `places` digits after the point, the exact value rounded with a half going
to the even neighbour. -/
def fixedText (places : Nat) (x : Float) : List Char :=
  let bits := x.toBits.toNat
  let units := match Binary.ofBits? bits with
    | some b =>
      let (num, den) := Binary.scaled b.mantissa b.exponent places
      roundDiv num den
    | none => 0
  let ds := Nat.toDigits 10 units
  let padded := List.replicate (places + 1 - ds.length) '0' ++ ds
  (if bits / Count.wordSize 63 = 1 then ['-'] else [])
    ++ padded.take (padded.length - places)
    ++ (if places = 0 then [] else '.' :: padded.drop (padded.length - places))

/-- The texts of the numbers of a type, and how they are read. -/
class NumberText (α : Type) where
  /-- The text inside a message. -/
  message : α → String
  /-- The text in a saved document; `none` for a number that has none there. -/
  document : α → Option String
  /-- The text in a configuration file. -/
  configuration : α → String
  /-- The text with a fixed number of places. -/
  fixed : Nat → α → String
  /-- The number nearest to `m * 10 ^ k`; `none` when it is beyond the largest one. -/
  ofDecimal? : (m : Nat) → (k : Int) → Option α

/-- The words for the numbers that have no digits. -/
def wordless (x : Float) (nan inf : String) : Option String :=
  if x.isNaN then some nan
  else if x.isFinite then none
  else some (if 0.0 < x then inf else "-" ++ inf)

instance : NumberText Float where
  message x := (wordless x "NaN" "inf").getD (String.ofList (DigitForm.message.text x))
  document x :=
    if x.isFinite then some (String.ofList (DigitForm.document.text x)) else none
  configuration x :=
    if x.isFinite then String.ofList (DigitForm.configuration.text x)
    else (wordless x ".nan" ".inf").getD ""
  fixed places x := (wordless x "NaN" "inf").getD (String.ofList (fixedText places x))
  ofDecimal? := Decimal.nearestFloat?

end HouseStyle
