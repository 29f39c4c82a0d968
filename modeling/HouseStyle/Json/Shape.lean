import HouseStyle.Count
import HouseStyle.Json.Document
import HouseStyle.Json.Value
import HouseStyle.Number.Text
import HouseStyle.SortedMap

/-!
# Reading values out of documents

A saved document is read by the shape that is expected of it.  A record may be given by its
members, of which unknown ones are skipped and known ones occur once, or by the list of its
fields in order.  A fractional number may be spelled as a whole one, but not the other way
round.  Everything that does not have the expected shape is refused.

Containers may be nested to a fixed depth.  The shapes of the library are far from it except
where a setting holds a value of any shape, so only that reader counts the levels.
-/

namespace HouseStyle

/-- Whether a field has to be given. -/
inductive Presence where
  /-- The field has to be given. -/
  | required
  /-- A member of this name may be left out. -/
  | optional
  /-- The field may be left out, also at the end of a list. -/
  | defaulted
deriving DecidableEq

namespace Presence

/-- Whether a member may be missing. -/
def mayBeAbsent : Presence → Bool
  | required => false
  | _ => true

/-- Whether a list of fields may end before this one. -/
def mayBeCut : Presence → Bool
  | defaulted => true
  | _ => false

end Presence

namespace Numeral

/-- The whole number that a numeral without point and exponent spells.  A zero with a minus
sign is not among them, as it is told apart from zero. -/
def int? (n : Numeral) : Option Int :=
  if n.integral && !(n.negative && n.mantissa == 0) then
    some (if n.negative then -(n.mantissa : Int) else n.mantissa)
  else none

/-- The number nearest to a numeral. -/
def real? {α : Type} [Scalar α] [NumberText α] (n : Numeral) : Option α :=
  (NumberText.ofDecimal? n.mantissa n.exponent).map fun x => if n.negative then -x else x

/-- The count that a numeral spells, if there is one below `2 ^ 64`. -/
def count? (n : Numeral) : Option Nat :=
  match n.int? with
  | some (.ofNat k) => if k < Count.wordSize 64 then some k else none
  | _ => none

/-- The value of a numeral: a whole number if 64 bits hold it, and else the nearest number. -/
def json? {α : Type} [Scalar α] [NumberText α] (n : Numeral) : Option (Json α) :=
  match n.int? with
  | some k => if -(Count.wordSize 63 : Int) ≤ k ∧ k < Count.wordSize 64 then some (.whole k) else n.real?.map .real
  | none => n.real?.map .real

end Numeral

namespace Document

variable {α : Type} [Scalar α] [NumberText α]

/-- Yes or no. -/
def flag? : Document → Option Bool
  | flag b => some b
  | _ => none

/-- A text. -/
def text? : Document → Option String
  | text s => s
  | _ => none

/-- A count. -/
def count? : Document → Option Nat
  | number n => n.count?
  | _ => none

/-- A number. -/
def real? : Document → Option α
  | number n => n.real?
  | _ => none

/-- A value that may be nothing. -/
def optional? {β : Type} (read : Document → Option β) : Document → Option (Option β)
  | null => some none
  | d => (read d).map some

/-- A list. -/
def list? {β : Type} (read : Document → Option β) : Document → Option (List β)
  | list items => items.mapM read
  | _ => none

/-- A table; of two entries with one key the later one counts. -/
def table? {β : Type} (read : Document → Option β) : Document → Option (SortedMap β)
  | record members =>
    (members.mapM fun (m : Option String × Document) => do
      let key ← m.1
      let value ← read m.2
      pure (key, value)).map SortedMap.ofList
  | _ => none

/-- One of some words, or a record whose only member has the word as its name. -/
def word? : Document → Option String
  | text s => s
  | record [(name, null)] => name
  | _ => none

/-- The members of a record that have one of the given names. -/
def knownMembers? (names : List String) (members : List (Option String × Document)) :
    Option (List (String × Document)) := do
  let named ← members.mapM fun m => m.1.map fun name => (name, m.2)
  let known := named.filter fun m => names.contains m.1
  guard (known.map Prod.fst).Nodup
  pure known

/-- The fields of a record, in order, each with what is given for it. -/
def fields? (shape : List (String × Presence)) : Document → Option (List (Option Document))
  | record members => do
    let known ← knownMembers? (shape.map Prod.fst) members
    shape.mapM fun field =>
      match known.lookup field.1 with
      | some d => some (some d)
      | none => if field.2.mayBeAbsent then some none else none
  | list items => do
    guard (items.length ≤ shape.length)
    guard ((shape.drop items.length).all fun field => field.2.mayBeCut)
    pure (items.map some ++ List.replicate (shape.length - items.length) none)
  | _ => none

/-- What is given for a field that may be left out. -/
def orElse? {β : Type} (d : Option Document) (fallback : β) (read : Document → Option β) :
    Option β :=
  match d with
  | some d => read d
  | none => some fallback

mutual

/-- A value of any shape, with containers nested at most `room` deep. -/
def json? (room : Nat) : Document → Option (Json α)
  | null => some .null
  | flag b => some (.flag b)
  | number n => n.json?
  | text s => s.map .text
  | list items =>
    match room with
    | 0 => none
    | room + 1 => (jsonItems? room items).map .list
  | record members =>
    match room with
    | 0 => none
    | room + 1 =>
      (jsonMembers? room members).map fun ms => .record (SortedMap.ofList ms).entries

/-- The items of a list of any shape. -/
def jsonItems? (room : Nat) : List Document → Option (List (Json α))
  | [] => some []
  | d :: ds => do
    let v ← json? room d
    let vs ← jsonItems? room ds
    pure (v :: vs)

/-- The members of a record of any shape. -/
def jsonMembers? (room : Nat) : List (Option String × Document) → Option (List (String × Json α))
  | [] => some []
  | (name, d) :: ms => do
    let name ← name
    let v ← json? room d
    let vs ← jsonMembers? room ms
    pure ((name, v) :: vs)

end

/-- The number of containers that may be nested in a document. -/
def depthLimit : Nat := 127

end Document

end HouseStyle
