/-!
# Values of saved documents

Settings of tools, and everything that is saved or printed as a document, are values built from
nothing, flags, numbers, texts, lists and records.  Whole numbers are kept apart from other
numbers, because they are written without a point.  The members of a record are written in the
order in which they stand here.
-/

namespace HouseStyle

/-- A value of a document whose fractional numbers are of type `α`. -/
inductive Json (α : Type) where
  /-- Nothing. -/
  | null
  /-- Yes or no. -/
  | flag (b : Bool)
  /-- A whole number. -/
  | whole (n : Int)
  /-- Any other number. -/
  | real (x : α)
  /-- A text. -/
  | text (s : String)
  /-- A list. -/
  | list (items : List (Json α))
  /-- A record of named members. -/
  | record (members : List (String × Json α))

namespace Json

variable {α : Type}

instance : Inhabited (Json α) := ⟨null⟩

/-- The value of a count. -/
def count (n : Nat) : Json α := whole n

/-- The value of what may be missing. -/
def optional (x : Option (Json α)) : Json α := x.getD null

/-- The text of a text value. -/
def text? : Json α → Option String
  | text s => some s
  | _ => none

end Json

end HouseStyle
