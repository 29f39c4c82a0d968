import HouseStyle.Number.Text
import HouseStyle.Tally

/-!
# Conventions

A convention is something that most of the observations agree on: a name for it, the value they
agree on, how confident one can be that it is meant, and how often it was seen.  Confidence
grows with the share of the observations that agree, along a logistic curve around one half.
-/

namespace HouseStyle

/-- What a convention is about. -/
inductive ConventionKind where
  /-- Names. -/
  | naming
  /-- The layout of the project. -/
  | layout
  /-- The look of the source text. -/
  | style
  /-- Doc comments. -/
  | documentation
deriving DecidableEq, Repr

namespace ConventionKind

/-- All kinds of conventions. -/
def all : List ConventionKind := [naming, layout, style, documentation]

/-- The label of a kind. -/
def label : ConventionKind → String
  | naming => "naming"
  | layout => "structure"
  | style => "style"
  | documentation => "documentation"

/-- The kind of a label. -/
def ofLabel? (label : String) : Option ConventionKind :=
  all.find? fun kind => kind.label == label

end ConventionKind

/-- The value that the observations agree on. -/
inductive ConventionValue (α : Type) where
  /-- Yes or no. -/
  | flag (b : Bool)
  /-- A number. -/
  | number (x : α)
  /-- A label. -/
  | text (s : String)

namespace ConventionValue

variable {α : Type}

/-- The label, if the value is one. -/
def text? : ConventionValue α → Option String
  | text s => some s
  | _ => none

/-- The number, if the value is one. -/
def number? : ConventionValue α → Option α
  | number x => some x
  | _ => none

/-- The flag, if the value is one. -/
def flag? : ConventionValue α → Option Bool
  | flag b => some b
  | _ => none

/-- Whether two values are equal. -/
def same [Scalar α] : ConventionValue α → ConventionValue α → Bool
  | flag a, flag b => a == b
  | number x, number y => Scalar.same x y
  | text s, text t => s == t
  | _, _ => false

/-- The value inside a message. -/
def message [NumberText α] : ConventionValue α → String
  | flag b => if b then "true" else "false"
  | number x => NumberText.message x
  | text s => s

end ConventionValue

/-- A convention. -/
structure Convention (α : Type) where
  /-- What it is about. -/
  kind : ConventionKind
  /-- Its name. -/
  name : String
  /-- What the observations agree on. -/
  value : ConventionValue α
  /-- How confident one can be. -/
  confidence : α
  /-- The number of observations that agree. -/
  frequency : Nat
  /-- Some of them. -/
  examples : List String

/-- What it takes for an observation to be reported as a convention. -/
structure Acceptance (α : Type) where
  /-- The least confidence; the share of the observations has to exceed it. -/
  floor : α
  /-- How fast confidence grows with the share. -/
  steepness : α

namespace Convention

variable {α : Type} [Scalar α]

/-- The greatest number of examples. -/
def maxExamples : Nat := 5

/-- A convention with confidence and examples kept within their bounds. -/
def make (kind : ConventionKind) (name : String) (value : ConventionValue α) (confidence : α)
    (frequency : Nat) (examples : List String) : Convention α :=
  ⟨kind, name, value, Scalar.clampUnit confidence, frequency, examples.take maxExamples⟩

/-- How confident one can be when `count` of `total` observations agree. -/
def shareConfidence (count total : Nat) (steepness : α) : α :=
  if total = 0 then 0.0
  else
    Scalar.clampUnit
      (1.0 / (1.0 + Scalar.exp (-steepness * (Scalar.share count total - 0.5))))

/-- The share of the observations that agree with the dominant label. -/
def agreement (tally : Tally) : α :=
  Scalar.share tally.dominantCount tally.total

/-- The convention that the dominant label of a tally shows, if the tally is clear enough. -/
def ofTally? (accept : Acceptance α) (kind : ConventionKind) (name : String) (tally : Tally)
    (examples : List String) : Option (Convention α) :=
  match tally.dominant? with
  | none => none
  | some (label, count) =>
    let confidence := shareConfidence count tally.total accept.steepness
    if Scalar.le (Scalar.share count tally.total) accept.floor then none
    else if Scalar.lt confidence accept.floor then none
    else some (make kind name (.text label) confidence count examples)

end Convention

end HouseStyle
