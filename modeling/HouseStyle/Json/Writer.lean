import HouseStyle.Json.Value
import HouseStyle.Number.Text

/-!
# Writing documents

A value has a compact text, on one line and without blanks, and a laid out text, with one
member or item on a line and two blanks for each level.  In a text, quotes, backslashes and
control characters are escaped and nothing else is.  A number that has no text of its own, as
it is infinite or has no value, is written as nothing.
-/

namespace HouseStyle.Json

variable {α : Type} [NumberText α]

/-- The short escape of a control character, if it has one. -/
def shortEscape? (c : Char) : Option Char :=
  if c = '\x08' then some 'b'
  else if c = '\x0c' then some 'f'
  else if c = '\n' then some 'n'
  else if c = '\r' then some 'r'
  else if c = '\t' then some 't'
  else none

/-- The digit of a number below 16. -/
def hexDigit (n : Nat) : Char := Nat.digitChar (n % 16)

/-- One character inside quotes. -/
def escapeChar (c : Char) : List Char :=
  if c = '\x22' ∨ c = '\\' then ['\\', c]
  else if c.toNat < 32 then
    match shortEscape? c with
    | some e => ['\\', e]
    | none => ['\\', 'u', '0', '0', hexDigit (c.toNat / 16), hexDigit c.toNat]
  else [c]

/-- A text in quotes. -/
def quote (s : String) : List Char :=
  '\x22' :: s.toList.flatMap escapeChar ++ ['\x22']

/-- The text of a whole number. -/
def wholeText (n : Int) : List Char :=
  if n < 0 then '-' :: Nat.toDigits 10 n.natAbs else Nat.toDigits 10 n.natAbs

/-- The text of any other number. -/
def realText (x : α) : List Char :=
  match NumberText.document x with
  | some s => s.toList
  | none => "null".toList

mutual

/-- The text of a value on one line. -/
def compact : Json α → List Char
  | null => "null".toList
  | flag b => (if b then "true" else "false").toList
  | whole n => wholeText n
  | real x => realText x
  | text s => quote s
  | list [] => ['[', ']']
  | list (item :: items) => '[' :: compact item ++ compactItems items
  | record [] => ['\x7b', '\x7d']
  | record ((name, value) :: members) =>
    '\x7b' :: quote name ++ ':' :: compact value ++ compactMembers members

/-- The further items of a list and its end. -/
def compactItems : List (Json α) → List Char
  | [] => [']']
  | item :: items => ',' :: compact item ++ compactItems items

/-- The further members of a record and its end. -/
def compactMembers : List (String × Json α) → List Char
  | [] => ['\x7d']
  | (name, value) :: members =>
    ',' :: quote name ++ ':' :: compact value ++ compactMembers members

end

/-- A new line at a level. -/
def newLine (level : Nat) : List Char :=
  '\n' :: List.replicate (2 * level) ' '

mutual

/-- The laid out text of a value that stands at a level. -/
def layOut (level : Nat) : Json α → List Char
  | null => "null".toList
  | flag b => (if b then "true" else "false").toList
  | whole n => wholeText n
  | real x => realText x
  | text s => quote s
  | list [] => ['[', ']']
  | list (item :: items) =>
    '[' :: newLine (level + 1) ++ layOut (level + 1) item ++ layOutItems level items
  | record [] => ['\x7b', '\x7d']
  | record ((name, value) :: members) =>
    '\x7b' :: newLine (level + 1) ++ quote name ++ ':' :: ' ' :: layOut (level + 1) value
      ++ layOutMembers level members

/-- The further items of a list and its end. -/
def layOutItems (level : Nat) : List (Json α) → List Char
  | [] => newLine level ++ [']']
  | item :: items =>
    ',' :: newLine (level + 1) ++ layOut (level + 1) item ++ layOutItems level items

/-- The further members of a record and its end. -/
def layOutMembers (level : Nat) : List (String × Json α) → List Char
  | [] => newLine level ++ ['\x7d']
  | (name, value) :: members =>
    ',' :: newLine (level + 1) ++ quote name ++ ':' :: ' ' :: layOut (level + 1) value
      ++ layOutMembers level members

end

/-- The text of a value on one line. -/
def compactText (v : Json α) : String := String.ofList v.compact

/-- The laid out text of a value. -/
def prettyText (v : Json α) : String := String.ofList (v.layOut 0)

end HouseStyle.Json
