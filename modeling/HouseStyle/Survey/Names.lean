import HouseStyle.Count

/-!
# The names in source files

Names are collected by what they stand for.  The order in which the names of one kind were met
is kept, because examples are shown in that order.
-/

namespace HouseStyle

/-- What a name stands for. -/
inductive NameKind where
  /-- A function or a method. -/
  | function
  /-- A class or another type. -/
  | type
  /-- A variable or a parameter. -/
  | binding
  /-- A constant. -/
  | constant
  /-- A file. -/
  | file
deriving DecidableEq, Repr

namespace NameKind

/-- All kinds of names. -/
def all : List NameKind := [function, type, binding, constant, file]

/-- The label of a kind. -/
def label : NameKind → String
  | function => "function"
  | type => "class"
  | binding => "variable"
  | constant => "constant"
  | file => "file"

/-- The name of the convention about names of a kind. -/
def convention (kind : NameKind) : String := kind.label ++ "_naming"

end NameKind

/-- A name and what it stands for. -/
structure Named where
  /-- What the name stands for. -/
  kind : NameKind
  /-- The name. -/
  name : String
deriving DecidableEq, Repr

/-- The names of a file or a language, by kind. -/
structure Names where
  /-- The names of functions. -/
  functions : List String
  /-- The names of types. -/
  types : List String
  /-- The names of variables. -/
  bindings : List String
  /-- The names of constants. -/
  constants : List String
  /-- The names of files. -/
  files : List String
deriving DecidableEq, Repr

namespace Names

/-- No names. -/
def empty : Names := ⟨[], [], [], [], []⟩

instance : Inhabited Names := ⟨empty⟩

/-- The names of a kind. -/
def get (names : Names) : NameKind → List String
  | .function => names.functions
  | .type => names.types
  | .binding => names.bindings
  | .constant => names.constants
  | .file => names.files

/-- The names that a choice of lists gives. -/
def ofKinds (f : NameKind → List String) : Names :=
  ⟨f .function, f .type, f .binding, f .constant, f .file⟩

/-- The names of a list, in its order; a name without characters is none. -/
def ofList (l : List Named) : Names :=
  ofKinds fun kind => (l.filter fun n => n.kind = kind ∧ n.name ≠ "").map Named.name

/-- The names of both. -/
def append (a b : Names) : Names := ofKinds fun kind => a.get kind ++ b.get kind

/-- The number of names. -/
def size (names : Names) : Nat := Count.sum (NameKind.all.map fun kind => (names.get kind).length)

@[simp] theorem get_ofKinds (f : NameKind → List String) (kind : NameKind) :
    (ofKinds f).get kind = f kind := by
  cases kind <;> rfl

@[simp] theorem get_empty (kind : NameKind) : empty.get kind = [] := by
  cases kind <;> rfl

end Names

end HouseStyle
