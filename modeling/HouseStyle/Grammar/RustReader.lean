import HouseStyle.Grammar.Reading
import HouseStyle.Grammar.RustForms
import HouseStyle.Grammar.RustTokens
import HouseStyle.Grammar.Walk
import HouseStyle.Survey.Measure

/-!
# Reading Rust

Functions, types, variables, constants and `use` declarations are found in the syntax tree.  Of
the comments right above an item, those that start as doc comments are its documentation;
attributes may stand between them.  Tests are known by their attributes.
-/

namespace HouseStyle.Grammar.Rust

open HouseStyle.Text HouseStyle.Survey

/-- The tree of a Rust file. -/
abbrev RustTree := Tree Kind

/-- The decision that a node of a kind is. -/
def decision : Kind → ControlFlow
  | .ifExpression => .branch
  | .loop => .loop
  | .matchArm => .case
  | .junction => .junction
  | _ => .none

/-- Whether the text of a comment documents what follows. -/
def documents (text : List Char) : Bool :=
  (startsWith text "///" && !startsWith text "////") || startsWith text "/**"

/-- What is found about the doc comment of an item, given the nodes before it, and whether there is
one. -/
def docFindings (source : Array Char) (before : List RustTree) (t : RustTree) :
    List Finding × Bool :=
  let comments := Tree.commentsAbove .comment [.attribute] t.label.start.row before
  match (comments.map fun c => c.text source).filter documents with
  | [] => ([], false)
  | first :: more =>
    let text := List.intercalate ['\n'] (first :: more)
    ([.docDelimiter (if startsWith first "/**" then "/**" else "///"),
      .docFormat (if holds text "# " then .rustdoc else .plain)], true)

/-- The name that an item declares. -/
def declaredName (source : Array Char) (t : RustTree) : String :=
  ((t.inRole? .name).map fun n => n.name source).getD ""

/-- What is found about a function. -/
def functionFindings (source : Array Char) (before : List RustTree) (t : RustTree) :
    List Finding :=
  let name := declaredName source t
  let (found, documented) := docFindings source before t
  found ++ [.name ⟨.function, name⟩,
    .function ⟨name, t.startLine, t.lineCount, t.controlFlow decision, documented, none⟩]

/-- What is found about a type. -/
def typeFindings (source : Array Char) (before : List RustTree) (t : RustTree) : List Finding :=
  let name := declaredName source t
  let (found, documented) := docFindings source before t
  found ++ [.name ⟨.type, name⟩, .type ⟨name, t.startLine, documented⟩]

/-- The variables that a pattern binds. -/
def patternFindings (source : Array Char) (t : RustTree) : List Finding :=
  match t.inRole? .pattern with
  | some p => (p.namesIn .identifier source).map fun name => .name ⟨.binding, name⟩
  | none => []

/-- The import that a `use` declaration makes. -/
def importFacts (source : Array Char) (line : Nat) (argument : RustTree) : ImportFacts :=
  let module := argument.text source
  { module := String.ofList module
    wildcard := argument.isKind .wildcard || endsWith module "::*"
    relative := startsWith module "self::" || startsWith module "super::"
    line }

/-- The test framework that an attribute with a text belongs to. -/
def attributeFramework? (text : List Char) : Option String :=
  if holds text "tokio::test" then some "tokio-test"
  else if text = "#[test]".toList then some "cargo-test"
  else none

/-- Whether a node invokes the macro of property tests. -/
def invokesPropertyTest (source : Array Char) (t : RustTree) : Bool :=
  (t.inRole? .invoked).any fun m => m.text source = "proptest".toList

/-- What is found at a node. -/
def visit (source : Array Char) (before : List RustTree) (_ : Unit) (t : RustTree) :
    List Finding × Unit :=
  let found := match t.kind with
    | some .function => functionFindings source before t
    | some .typeItem => typeFindings source before t
    | some .letStatement | some .parameter => patternFindings source t
    | some .constant => [.name ⟨.constant, declaredName source t⟩]
    | some .useDeclaration =>
      ((t.inRole? .module).map fun m => Finding.imported (importFacts source t.startLine m)).toList
    | some .attribute =>
      ((attributeFramework? (t.text source)).map Finding.framework).toList
    | some .macroInvocation =>
      if invokesPropertyTest source t then [.framework "proptest"] else []
    | _ => []
  (found, ())

/-- The facts about a Rust file, if it follows the grammar. -/
def read? (language : String) (path : SourcePath) (source : List Char) : Option FileFacts := do
  let tokens ← lex? source
  let tree ← grammar.parse? .file tokens
  some (fileFacts path language source (tree.gather (visit source.toArray) ()))

end HouseStyle.Grammar.Rust
