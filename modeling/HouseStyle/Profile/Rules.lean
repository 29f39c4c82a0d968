import HouseStyle.Json.Value
import HouseStyle.Survey.Metrics

/-!
# Rules for linters and formatters

Each convention translates into settings of the tools that are customary for the language, and
so do long lines and the averages of complexity and function length.  A setting is a tool, a key
and a value.  Rules are the settings of a list put together, the last one counting where
several have one tool and one key.
-/

namespace HouseStyle

/-- The settings of one tool. -/
abbrev RuleSet (α : Type) := SortedMap (Json α)

/-- The settings of all tools. -/
abbrev Rules (α : Type) := SortedMap (RuleSet α)

/-- One setting of a tool. -/
structure ToolSetting (α : Type) where
  /-- The tool. -/
  tool : String
  /-- The key of the setting. -/
  key : String
  /-- Its value. -/
  value : Json α

namespace Rules

variable {α : Type}

/-- Make a setting. -/
def set (rules : Rules α) (s : ToolSetting α) : Rules α :=
  rules.upsert s.tool fun old => (old.getD .empty).insert s.key s.value

/-- The rules that make all settings of a list. -/
def ofSettings (settings : List (ToolSetting α)) : Rules α := settings.foldl set .empty

/-- The rules of both; where both make a setting, the one of `extra` counts. -/
def merge (rules extra : Rules α) : Rules α :=
  extra.entries.foldl (fun acc e => acc.upsert e.1 fun old => (old.getD .empty).union e.2) rules

end Rules

/-- The tools that are customary for a language. -/
inductive Toolchain where
  /-- The tools for Python. -/
  | python
  /-- The tools for JavaScript and TypeScript. -/
  | javascript
  /-- The tools for Go. -/
  | go
  /-- The tools for Rust. -/
  | rust
deriving DecidableEq, Repr

namespace Toolchain

variable {α : Type} [Scalar α]

/-- The tools for a language. -/
def ofLanguage? (language : String) : Option Toolchain :=
  if language = "python" then some python
  else if language = "javascript" ∨ language = "typescript" then some javascript
  else if language = "go" then some go
  else if language = "rust" then some rust
  else none

/-- A setting with a level and an argument. -/
def leveled (level : String) (argument : Json α) : Json α := .list [.text level, argument]

/-- The style that the value of a convention names. -/
def styleOf? (c : Convention α) : Option NamingStyle :=
  c.value.text?.bind NamingStyle.ofLabel?

/-- The whole number of columns that the value of a convention names. -/
def columnsOf? (c : Convention α) : Option Nat :=
  c.value.number?.map Scalar.wholePart

/-- The name of a style among the settings of pylint. -/
def pylintStyle? : NamingStyle → Option String
  | .snakeCase => some "snake_case"
  | .camelCase => some "camelCase"
  | .pascalCase => some "PascalCase"
  | .upperSnakeCase => some "UPPER_CASE"
  | .kebabCase => none

/-- The key of pylint for a convention about names. -/
def pylintKey? (name : String) : Option String :=
  [("function_naming", "function-naming-style"), ("class_naming", "class-naming-style"),
    ("variable_naming", "variable-naming-style"), ("constant_naming", "const-naming-style")].lookup
    name

/-- The docstring convention for a format. -/
def pydocstyle? (format : String) : Option String :=
  [("google", "google"), ("numpy", "numpy"), ("sphinx", "pep257"), ("plain", "pep257")].lookup
    format

/-- The settings for a convention of Python code. -/
def pythonSettings (c : Convention α) : List (ToolSetting α) :=
  match pylintKey? c.name with
  | some key =>
    match (styleOf? c).bind pylintStyle? with
    | some style => [⟨"pylint", key, .text style⟩]
    | none => []
  | none =>
    match c.name, c.value.text? with
    | "quote_style", some "single" =>
      [⟨"flake8", "inline-quotes", .text "single"⟩,
        ⟨"black", "skip-string-normalization", .flag true⟩]
    | "quote_style", some "double" => [⟨"flake8", "inline-quotes", .text "double"⟩]
    | "indent_size", _ =>
      match columnsOf? c with
      | some n =>
        [⟨"flake8", "indent-size", .count n⟩,
          ⟨"pylint", "indent-string", .text (String.ofList (List.replicate n ' '))⟩]
      | none => []
    | "indentation", some "tabs" => [⟨"pylint", "indent-string", .text "\t"⟩]
    | "import_style", some "absolute" => [⟨"flake8", "ban-relative-imports", .flag true⟩]
    | "type_annotations", some "annotated" => [⟨"mypy", "disallow_untyped_defs", .flag true⟩]
    | "type_annotations", some "unannotated" => [⟨"mypy", "disallow_untyped_defs", .flag false⟩]
    | "docstring_format", some format =>
      match pydocstyle? format with
      | some convention => [⟨"pydocstyle", "convention", .text convention⟩]
      | none => []
    | "high_documentation_coverage", _ => [⟨"pydocstyle", "add-select", .text "D101,D102,D103"⟩]
    | _, _ => []

/-- The settings for a convention of JavaScript or TypeScript code. -/
def javascriptSettings (language : String) (c : Convention α) : List (ToolSetting α) :=
  match c.name, c.value.text? with
  | "function_naming", _ | "variable_naming", _ =>
    match styleOf? c with
    | some .camelCase =>
      [⟨"eslint", "camelcase", leveled "error" (.record [("properties", .text "never")])⟩]
    | some .snakeCase => [⟨"eslint", "camelcase", .text "off"⟩]
    | _ => []
  | "class_naming", _ =>
    if styleOf? c = some .pascalCase then [⟨"eslint", "new-cap", .text "error"⟩] else []
  | "quote_style", some quote =>
    [⟨"eslint", "quotes", leveled "error" (.text quote)⟩,
      ⟨"prettier", "singleQuote", .flag (quote == "single")⟩]
  | "indentation", some "tabs" =>
    [⟨"eslint", "indent", leveled "error" (.text "tab")⟩, ⟨"prettier", "useTabs", .flag true⟩]
  | "indentation", some "spaces" => [⟨"prettier", "useTabs", .flag false⟩]
  | "indent_size", _ =>
    match columnsOf? c with
    | some n =>
      [⟨"eslint", "indent", leveled "error" (.count n)⟩, ⟨"prettier", "tabWidth", .count n⟩]
    | none => []
  | "import_style", some "absolute" =>
    [⟨"eslint", "no-restricted-imports",
      leveled "error" (.record [("patterns", .list [.text "../*"])])⟩]
  | "type_annotations", some "annotated" =>
    if language = "typescript" then
      [⟨"eslint", "@typescript-eslint/explicit-function-return-type", .text "warn"⟩]
    else []
  | "high_documentation_coverage", _ => [⟨"eslint", "jsdoc/require-jsdoc", .text "warn"⟩]
  | _, _ => []

/-- The settings for a convention of Go code. -/
def goSettings (c : Convention α) : List (ToolSetting α) :=
  match c.name, c.value.text? with
  | "function_naming", _ | "class_naming", _ | "variable_naming", _ | "constant_naming", _ =>
    if styleOf? c = some .camelCase ∨ styleOf? c = some .pascalCase then
      [⟨"golangci-lint", "stylecheck.ST1003", .flag true⟩]
    else []
  | "indentation", some "tabs" => [⟨"gofmt", "simplify", .flag true⟩]
  | "docstring_format", some "godoc" => [⟨"golangci-lint", "stylecheck.ST1020", .flag true⟩]
  | "high_documentation_coverage", _ => [⟨"golangci-lint", "revive.exported", .flag true⟩]
  | _, _ => []

/-- The settings for a convention of Rust code. -/
def rustSettings (c : Convention α) : List (ToolSetting α) :=
  match c.name, c.value.text? with
  | "function_naming", _ | "variable_naming", _ =>
    if styleOf? c = some .snakeCase then [⟨"rustc", "non_snake_case", .text "deny"⟩] else []
  | "class_naming", _ =>
    if styleOf? c = some .pascalCase then [⟨"rustc", "non_camel_case_types", .text "deny"⟩] else []
  | "constant_naming", _ =>
    if styleOf? c = some .upperSnakeCase then
      [⟨"rustc", "non_upper_case_globals", .text "deny"⟩]
    else []
  | "indentation", some "tabs" => [⟨"rustfmt", "hard_tabs", .flag true⟩]
  | "indentation", some "spaces" => [⟨"rustfmt", "hard_tabs", .flag false⟩]
  | "indent_size", _ =>
    match columnsOf? c with
    | some n => [⟨"rustfmt", "tab_spaces", .count n⟩]
    | none => []
  | "import_style", some "absolute" => [⟨"clippy", "wildcard_imports", .text "warn"⟩]
  | "high_documentation_coverage", _ =>
    [⟨"clippy", "missing_docs_in_private_items", .text "warn"⟩]
  | _, _ => []

/-- The settings for a convention. -/
def settings (tools : Toolchain) (language : String) (c : Convention α) : List (ToolSetting α) :=
  match tools with
  | python => pythonSettings c
  | javascript => javascriptSettings language c
  | go => goSettings c
  | rust => rustSettings c

/-- The greatest length of a line where lines are long. -/
def wideLine : Json α := .count 120

/-- The settings for long lines. -/
def wideSettings : Toolchain → List (ToolSetting α)
  | python =>
    [⟨"flake8", "max-line-length", wideLine⟩, ⟨"pylint", "max-line-length", wideLine⟩,
      ⟨"black", "line-length", wideLine⟩]
  | javascript =>
    [⟨"eslint", "max-len", leveled "error" (.record [("code", wideLine)])⟩,
      ⟨"prettier", "printWidth", wideLine⟩]
  | go => [⟨"golangci-lint", "lll.line-length", wideLine⟩]
  | rust => [⟨"rustfmt", "max_width", wideLine⟩]

/-- The settings for a greatest complexity and a greatest function length. -/
def limitSettings (complexity length : Nat) : Toolchain → List (ToolSetting α)
  | python =>
    [⟨"flake8", "max-complexity", .count complexity⟩,
      ⟨"flake8", "max-function-length", .count length⟩]
  | javascript =>
    [⟨"eslint", "complexity", leveled "warn" (.count complexity)⟩,
      ⟨"eslint", "max-lines-per-function", leveled "warn" (.count length)⟩]
  | go =>
    [⟨"golangci-lint", "gocyclo.min-complexity", .count complexity⟩,
      ⟨"golangci-lint", "funlen.lines", .count length⟩]
  | rust =>
    [⟨"clippy", "cognitive-complexity-threshold", .count complexity⟩,
      ⟨"clippy", "too-many-lines-threshold", .count length⟩]

end Toolchain

namespace LineStats

/-- The mean length of the lines. -/
def average {α : Type} [Scalar α] (s : LineStats) : α := Scalar.share s.totalLength s.lines

end LineStats

namespace Rules

variable {α : Type} [Scalar α]

/-- The settings for conventions and lines of a language. -/
def settingsOf (tools : Toolchain) (language : String) (conventions : List (Convention α))
    (lines : LineStats) : List (ToolSetting α) :=
  conventions.flatMap (tools.settings language)
    ++ if Scalar.lt (100.0 : α) lines.average then tools.wideSettings else []

/-- The rules for the conventions of a language; none for a language without tools. -/
def derive (language : String) (conventions : List (Convention α)) (lines : LineStats) : Rules α :=
  match Toolchain.ofLanguage? language with
  | none => .empty
  | some tools => ofSettings (settingsOf tools language conventions lines)

/-- The greatest complexity that is accepted where the mean is `mean`. -/
def complexityLimit (mean : α) : Nat := max (Scalar.nearest (mean * 1.2)) 5

/-- The greatest function length that is accepted where the mean is `mean`. -/
def lengthLimit (mean : α) : Nat := max (Scalar.nearest (mean * 1.5)) 20

/-- The rules for the averages of a language. -/
def limits (language : String) (m : LanguageMetrics α) : Rules α :=
  match Toolchain.ofLanguage? language with
  | none => .empty
  | some tools =>
    ofSettings (tools.limitSettings (complexityLimit m.avgComplexity)
      (lengthLimit m.avgFunctionSize))

end Rules

end HouseStyle
