import HouseStyle.Grammar.GoForms
import HouseStyle.Grammar.GoTokens
import HouseStyle.Grammar.Reading
import HouseStyle.Grammar.Walk
import HouseStyle.Survey.Measure

/-!
# Reading Go

Functions, types, variables, constants and imports are found in the syntax tree.  The comments
right above a declaration are its doc comment, and the types of one declaration share it.  By
convention a doc comment starts with the name that is declared.
-/

namespace HouseStyle.Grammar.Go

open HouseStyle.Text HouseStyle.Survey

/-- The grammar of Go. -/
def grammar : RuleSystem Rule Kind := ⟨form reserved, .comment⟩

/-- The tree of a Go file. -/
abbrev GoTree := Tree Kind

/-- The decision that a node of a kind is. -/
def decision : Kind → ControlFlow
  | .ifStatement => .branch
  | .forStatement => .loop
  | .case => .case
  | .junction => .junction
  | _ => .none

/-- What follows any number of occurrences of a mark. -/
def afterMarks (m : List Char) (cs : List Char) : List Char :=
  match cs with
  | [] => []
  | c :: rest =>
    if m.isPrefixOf (c :: rest) then afterMarks m (rest.drop (m.length - 1)) else c :: rest
termination_by cs.length
decreasing_by all_goals simp_wf; try omega

/-- The format of a doc comment with a text, for a name that is declared. -/
def formatFor (name : String) (text : List Char) : DocFormat :=
  let body := trimStart (afterMarks "/*".toList (afterMarks "//".toList text))
  if name ≠ "" ∧ startsWith body name then .godoc else .plain

/-- The text of the first of the comments right above a declaration, given the nodes before it. -/
def docText? (source : Array Char) (before : List GoTree) (t : GoTree) : Option (List Char) :=
  (Tree.commentsAbove .comment [] t.label.start.row before).head?.map fun c => c.text source

/-- How a doc comment with a text begins. -/
def docDelimiter (text : List Char) : String := if startsWith text "/*" then "/*" else "//"

/-- The name that a node declares. -/
def declaredName (source : Array Char) (t : GoTree) : String :=
  ((t.inRole? .name).map fun n => n.name source).getD ""

/-- The names of a kind that a node declares.  The low line is no name. -/
def declaredNames (source : Array Char) (kind : NameKind) (t : GoTree) : List Finding :=
  (((t.inRole .name).map fun n => n.name source).filter (· != "_")).map fun n => .name ⟨kind, n⟩

/-- What is found about a function. -/
def functionFindings (source : Array Char) (before : List GoTree) (t : GoTree) : List Finding :=
  let name := declaredName source t
  let doc := docText? source before t
  (doc.toList.flatMap fun text =>
      [Finding.docDelimiter (docDelimiter text), .docFormat (formatFor name text)])
    ++ [.name ⟨.function, name⟩,
      .function ⟨name, t.startLine, t.lineCount, t.controlFlow decision, doc.isSome, none⟩]

/-- What is found about the types of a declaration. -/
def typeFindings (source : Array Char) (before : List GoTree) (t : GoTree) : List Finding :=
  let doc := docText? source before t
  (t.children.filter fun c => c.isKind .typeSpec).flatMap fun c =>
    let name := declaredName source c
    (doc.toList.flatMap fun text =>
        [Finding.docDelimiter (docDelimiter text), .docFormat (formatFor name text)])
      ++ [.name ⟨.type, name⟩, .type ⟨name, c.startLine, doc.isSome⟩]

/-- The variables that a statement declares by their first values. -/
def shortVariables (source : Array Char) (t : GoTree) : List Finding :=
  let names := ((t.inRole? .left).map Tree.namedChildren).getD []
  (((names.filter fun n => n.isKind .identifier).map fun n => n.name source).filter
    (· != "_")).map fun n => .name ⟨.binding, n⟩

/-- The import that a node makes. -/
def importFacts (source : Array Char) (t : GoTree) : ImportFacts :=
  let quoted := ((t.inRole? .module).map fun m => m.text source).getD []
  let module := ((quoted.dropWhile (· == '\x22')).reverse.dropWhile (· == '\x22')).reverse
  { module := String.ofList module
    wildcard := (t.inRole? .name).any fun n => n.isKind .dot
    relative := startsWith module "./" || startsWith module "../"
    line := t.startLine }

/-- What is found at a node. -/
def visit (source : Array Char) (before : List GoTree) (_ : Unit) (t : GoTree) :
    List Finding × Unit :=
  let found := match t.kind with
    | some .function => functionFindings source before t
    | some .typeDeclaration => typeFindings source before t
    | some .shortVariable => shortVariables source t
    | some .variableSpec | some .parameters => declaredNames source .binding t
    | some .constantSpec => declaredNames source .constant t
    | some .importSpec => [.imported (importFacts source t)]
    | _ => []
  (found, ())

/-- The test frameworks by the paths of their packages. -/
def frameworks : List (String × String) := [
  ("testing", "testing"), ("github.com/stretchr/testify", "testify"),
  ("github.com/onsi/ginkgo", "ginkgo"), ("github.com/onsi/gomega", "gomega")]

/-- The test framework that an imported path belongs to. -/
def frameworkOf? (path : String) : Option String :=
  (frameworks.find? fun e => path == e.1 || startsWith path.toList (e.1 ++ "/")).map Prod.snd

/-- The facts about a Go file, if it follows the grammar. -/
def read? (language : String) (path : SourcePath) (source : List Char) : Option FileFacts := do
  let tokens ← lex? source
  let tree ← grammar.parse? .file tokens
  let found := tree.gather (visit source.toArray) ()
  let labels := (found.filterMap Finding.import?).filterMap fun i => frameworkOf? i.module
  some (fileFacts path language source (found ++ labels.map .framework))

end HouseStyle.Grammar.Go
