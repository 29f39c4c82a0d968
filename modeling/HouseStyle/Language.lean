/-!
# Languages

The languages whose files are read.  A file belongs to the language that has its extension.
-/

namespace HouseStyle

/-- A language whose files are read. -/
inductive Language where
  /-- Python. -/
  | python
  /-- JavaScript. -/
  | javascript
  /-- TypeScript. -/
  | typescript
  /-- Go. -/
  | go
  /-- Rust. -/
  | rust
deriving DecidableEq, Repr

/-- How the files of a language are read. -/
inductive Reading where
  /-- By a grammar. -/
  | syntaxTree
  /-- Line by line. -/
  | heuristic
deriving DecidableEq, Repr

/-- The label of a way to read files. -/
def Reading.label : Reading → String
  | syntaxTree => "SyntaxTree"
  | heuristic => "Heuristic"

namespace Language

/-- All languages. -/
def all : List Language := [python, javascript, typescript, go, rust]

/-- The name of a language in settings and results. -/
def id : Language → String
  | python => "python"
  | javascript => "javascript"
  | typescript => "typescript"
  | go => "go"
  | rust => "rust"

/-- The names of all languages. -/
def ids : List String := all.map id

/-- The language of a name. -/
def ofId? (name : String) : Option Language := all.find? fun l => l.id == name

/-- The extensions of the files of a language. -/
def extensions : Language → List String
  | python => ["py", "pyi"]
  | javascript => ["js", "jsx", "mjs", "cjs"]
  | typescript => ["ts", "tsx", "mts", "cts"]
  | go => ["go"]
  | rust => ["rs"]

/-- The language whose files have an extension. -/
def ofExtension? (extension : String) : Option Language :=
  match extension with
  | "py" | "pyi" => some python
  | "js" | "jsx" | "mjs" | "cjs" => some javascript
  | "ts" | "tsx" | "mts" | "cts" => some typescript
  | "go" => some go
  | "rs" => some rust
  | _ => none

/-- How the files of a language are read. -/
def reading : Language → Reading
  | javascript | typescript => .heuristic
  | _ => .syntaxTree

end Language

end HouseStyle
