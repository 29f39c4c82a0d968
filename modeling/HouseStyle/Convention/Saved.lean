import HouseStyle.Convention.Basic
import HouseStyle.Json.Shape
import HouseStyle.Json.Value

/-!
# Conventions in documents

A convention is written as a record of its six fields.  Its value is written as it is, so a
flag, a number and a label are told apart by their spelling.
-/

namespace HouseStyle

namespace ConventionValue

variable {α : Type}

/-- The value in a document. -/
def toJson : ConventionValue α → Json α
  | flag b => .flag b
  | number x => .real x
  | text s => .text s

/-- The value that a document spells. -/
def ofDocument? [Scalar α] [NumberText α] : Document → Option (ConventionValue α)
  | .flag b => some (.flag b)
  | .number n => n.real?.map .number
  | .text s => s.map .text
  | _ => none

end ConventionValue

namespace Convention

variable {α : Type}

/-- The convention in a document. -/
def toJson (c : Convention α) : Json α :=
  .record [("pattern_type", .text c.kind.label), ("pattern_name", .text c.name),
    ("pattern_value", c.value.toJson), ("confidence", .real c.confidence),
    ("frequency", .count c.frequency), ("examples", .list (c.examples.map .text))]

/-- The fields of a convention. -/
def shape : List (String × Presence) :=
  [("pattern_type", .required), ("pattern_name", .required), ("pattern_value", .required),
    ("confidence", .required), ("frequency", .required), ("examples", .required)]

/-- The convention that a document spells. -/
def ofDocument? [Scalar α] [NumberText α] (d : Document) : Option (Convention α) := do
  match ← d.fields? shape with
  | [some kind, some name, some value, some confidence, some frequency, some examples] =>
    let kind ← kind.word?.bind ConventionKind.ofLabel?
    let name ← name.text?
    let value ← ConventionValue.ofDocument? value
    let confidence ← confidence.real?
    let frequency ← frequency.count?
    let examples ← examples.list? Document.text?
    pure ⟨kind, name, value, confidence, frequency, examples⟩
  | _ => none

end Convention

end HouseStyle
