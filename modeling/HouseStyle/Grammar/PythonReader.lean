import HouseStyle.Grammar.PythonForms
import HouseStyle.Grammar.PythonTokens
import HouseStyle.Grammar.Reading
import HouseStyle.Grammar.Walk
import HouseStyle.Survey.Measure

/-!
# Reading Python

Functions, classes, assignments, imports and text literals are found in the syntax tree.  A doc
comment is a text literal that is the first statement of a body.  Names that are assigned
outside of all functions and classes are constants, other names are variables.
-/

namespace HouseStyle.Grammar.Python

open HouseStyle.Text HouseStyle.Survey

/-- The tree of a Python file. -/
abbrev PythonTree := Tree Kind

/-- The decision that a node of a kind is. -/
def decision : Kind → ControlFlow
  | .ifStatement | .elifClause => .branch
  | .conditional => .conditional
  | .forStatement | .whileStatement => .loop
  | .exceptClause => .handler
  | .caseClause => .case
  | .junction => .junction
  | _ => .none

/-- The quotes of a text literal, given its text. -/
def delimiter (text : List Char) : String :=
  match quotes? (text.dropWhile Char.isAlpha) with
  | some q => String.ofList q
  | none => "\x27"

/-- The doc comment of a declaration. -/
def doc? (source : Array Char) (t : PythonTree) : Option Doc := do
  let body ← t.inRole? .body
  let first ← body.namedChildren.find? fun c => !c.isKind .comment
  let literal ← if first.isKind .expressionStatement then first.namedChildren.head? else none
  if literal.isKind .text then
    let text := literal.text source
    some ⟨delimiter text, docFormat text⟩
  else none

/-- The name that a declaration gives. -/
def declaredName (source : Array Char) (t : PythonTree) : String :=
  ((t.inRole? .name).map fun n => n.name source).getD ""

/-- The name that a parameter gives. -/
def parameterName? (source : Array Char) (t : PythonTree) : Option String :=
  match t.kind with
  | some .identifier => some (t.name source)
  | some .defaultParameter | some .typedDefaultParameter => some (declaredName source t)
  | some .typedParameter =>
    (t.namedChildren.head?.filter fun c => c.isKind .identifier).map fun c => c.name source
  | _ => none

/-- The parameters of a function. -/
def parametersOf (t : PythonTree) : List PythonTree :=
  ((t.inRole? .parameters).map Tree.namedChildren).getD []

/-- Whether a function has a type on a parameter or on its result. -/
def isAnnotated (t : PythonTree) : Bool :=
  (t.inRole? .result).isSome || (parametersOf t).any fun p =>
    p.isKind .typedParameter || p.isKind .typedDefaultParameter

/-- The names by which a method calls what it belongs to. -/
def receivers : List String := ["self", "cls"]

/-- What is found about a function. -/
def functionFindings (source : Array Char) (t : PythonTree) : List Finding :=
  let name := declaredName source t
  let doc := doc? source t
  let parameters := (parametersOf t).filterMap (parameterName? source)
  (doc.toList.flatMap fun d => [Finding.docDelimiter d.delimiter, .docFormat d.format])
    ++ (parameters.filter fun p => !receivers.contains p).map (fun p => Finding.name ⟨.binding, p⟩)
    ++ [.name ⟨.function, name⟩,
      .function ⟨name, t.startLine, t.lineCount, t.controlFlow decision, doc.isSome,
        some (isAnnotated t)⟩]

/-- What is found about a class. -/
def classFindings (source : Array Char) (t : PythonTree) : List Finding :=
  let name := declaredName source t
  let doc := doc? source t
  (doc.toList.flatMap fun d => [Finding.docDelimiter d.delimiter, .docFormat d.format])
    ++ [.name ⟨.type, name⟩, .type ⟨name, t.startLine, doc.isSome⟩]

/-- How many declarations a node lies in. -/
structure Depth where
  /-- The functions around it. -/
  functions : Nat
  /-- The classes around it. -/
  types : Nat
deriving DecidableEq, Repr

namespace Depth

/-- In no declaration. -/
def zero : Depth := ⟨0, 0⟩

/-- In one more function. -/
def inFunction (d : Depth) : Depth := { d with functions := d.functions + 1 }

/-- In one more class. -/
def inType (d : Depth) : Depth := { d with types := d.types + 1 }

/-- Whether a node lies in no declaration. -/
def isOutside (d : Depth) : Bool := d.functions == 0 && d.types == 0

end Depth

/-- The names that an assignment gives. -/
def assignmentFindings (source : Array Char) (depth : Depth) (t : PythonTree) : List Finding :=
  let kind := if depth.isOutside then NameKind.constant else .binding
  match t.inRole? .left with
  | some left => (left.namesIn .identifier source).map fun name => .name ⟨kind, name⟩
  | none => []

/-- The module that an import names, without the other name that it is given. -/
def moduleName (source : Array Char) (t : PythonTree) : String :=
  if t.isKind .importAlias then declaredName source t else t.name source

/-- What is found at a node, and how deep what is below it lies. -/
def visit (source : Array Char) (_ : List PythonTree) (depth : Depth) (t : PythonTree) :
    List Finding × Depth :=
  match t.kind with
  | some .function => (functionFindings source t, depth.inFunction)
  | some .class_ => (classFindings source t, depth.inType)
  | some .assignment => (assignmentFindings source depth t, depth)
  | some .importModules =>
    ((t.inRole .name).map fun n => .imported ⟨moduleName source n, false, false, t.startLine⟩,
      depth)
  | some .importNames =>
    let module := t.inRole? .module
    ([.imported
      { module := (module.map fun m => m.name source).getD ""
        wildcard := t.hasChild .wildcard
        relative := module.any fun m => m.isKind .relativeModule
        line := t.startLine }], depth)
  | some .text =>
    let quote := t.namedChildren.head?.map fun s => delimiter (s.text source)
    (match quote with
    | some "\x27" => [.quotes ⟨1, 0⟩]
    | some "\"" => [.quotes ⟨0, 1⟩]
    | _ => [], depth)
  | _ => ([], depth)

/-- The test frameworks by the packages that they are imported from. -/
def frameworks : List (String × String) := [
  ("pytest", "pytest"), ("unittest", "unittest"), ("nose", "nose"), ("nose2", "nose"),
  ("hypothesis", "hypothesis")]

/-- The test frameworks of a file.  Test functions without an import are those of `pytest`. -/
def frameworkFindings (isTest : Bool) (found : List Finding) : List Finding :=
  let roots := (found.filterMap Finding.import?).map fun i =>
    String.ofList (i.module.toList.takeWhile (· != '.'))
  let labels := roots.filterMap fun r => (frameworks.find? fun e => e.1 == r).map Prod.snd
  let hasTest := (found.filterMap Finding.function?).any fun f => startsWith f.name.toList "test_"
  (if isTest && labels.isEmpty && hasTest then ["pytest"] else labels).map .framework

/-- The facts about a Python file, if it follows the grammar. -/
def read? (language : String) (path : SourcePath) (source : List Char) : Option FileFacts := do
  let tokens ← lex? source
  let tree ← grammar.parse? .file tokens
  let found := tree.gather (visit source.toArray) .zero
  some (fileFacts path language source (found ++ frameworkFindings path.isTest found))

end HouseStyle.Grammar.Python
