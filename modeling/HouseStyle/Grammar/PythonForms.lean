import HouseStyle.Grammar.Form

/-!
# The grammar of Python

Only what the readers look at has a kind of its own: declarations, assignments, imports,
parameters, text literals and whatever counts as a decision.  Operators of one level are joined
from left to right, since their precedence does not matter here; each `and` and `or` is a node of
its own.  The target of an assignment or of a loop is a name, something that belongs to a value,
or a list of targets.
-/

namespace HouseStyle.Grammar.Python

/-- The kinds of nodes of Python. -/
inductive Kind where
  /-- A comment. -/
  | comment
  /-- A name. -/
  | identifier
  /-- A function or a method. -/
  | function
  /-- A class. -/
  | class_
  /-- The body of a declaration. -/
  | block
  /-- A statement that is an expression. -/
  | expressionStatement
  /-- An assignment. -/
  | assignment
  /-- An import of modules. -/
  | importModules
  /-- A module that is imported under another name. -/
  | importAlias
  /-- An import of names from a module. -/
  | importNames
  /-- A module that is named relative to the file. -/
  | relativeModule
  /-- All names of a module. -/
  | wildcard
  /-- A text literal. -/
  | text
  /-- The start of a text literal. -/
  | textStart
  /-- A parameter with a default. -/
  | defaultParameter
  /-- A parameter with a type. -/
  | typedParameter
  /-- A parameter with a type and a default. -/
  | typedDefaultParameter
  /-- An `if` statement. -/
  | ifStatement
  /-- A further branch of an `if` statement. -/
  | elifClause
  /-- A conditional expression. -/
  | conditional
  /-- A loop over values. -/
  | forStatement
  /-- A loop with a condition. -/
  | whileStatement
  /-- A handler. -/
  | exceptClause
  /-- A case. -/
  | caseClause
  /-- Two operands of `and` or `or`. -/
  | junction
deriving DecidableEq, Repr

/-- The rules of the grammar. -/
inductive Rule where
  | file | statement | simple | suite | block | expression | disjunction | inversion | comparison
  | arithmetic | unary | primary | atom | expressions | target | targets | assigned | argument
  | element | comprehension | subscript | parameter | lambdaParameter | typeParameters | type
  | casePattern | caseUnion | caseItem | field | yielding | moduleName | importList | decorated
  | definition
deriving DecidableEq, Repr

/-- The words that are no names. -/
def reserved : List String := [
  "False", "None", "True", "and", "as", "assert", "async", "await", "break", "class", "continue",
  "def", "del", "elif", "else", "except", "except*", "finally", "for", "from", "global", "if",
  "import", "in", "is", "lambda", "nonlocal", "not", "or", "pass", "raise", "return", "try",
  "while", "with", "yield"]

open Form

/-- A form of the grammar. -/
abbrev PythonForm := Form Rule Kind

/-- A name where an expression may stand. -/
def name : PythonForm :=
  leaf (some .identifier) fun t => t.shape == .word && !reserved.contains t.text

/-- A name where only a name may stand. -/
def anyName : PythonForm := leaf (some .identifier) (·.shape == .word)

/-- The name of an argument. -/
def argumentName : PythonForm :=
  leaf (some .identifier) fun t =>
    t.shape == .word
      && !(["None", "True", "False", "not", "lambda", "await"].contains t.text)

/-- The end of a line. -/
def lineEnd : PythonForm := silent (·.shape == .lineEnd)

/-- The start of a block. -/
def indent : PythonForm := silent (·.shape == .indent)

/-- The end of a block. -/
def dedent : PythonForm := silent (·.shape == .dedent)

/-- A text literal: its quotes, and the expressions in it. -/
def textLiteral : PythonForm :=
  node (some .text)
    (all [leaf (some .textStart) (·.shape == .textStart), many (rule .field),
      token (·.shape == .textStop)])

/-- Further parts after commas, with an optional comma at the end. -/
def more (part : PythonForm) : PythonForm :=
  seq (many (seq (mark ",") part)) (optional (mark ","))

/-- What a comprehension or a list of elements holds between its brackets. -/
def elements (close : String) : PythonForm :=
  seq (optional (seq (rule .element) (either (plus (rule .comprehension)) (more (rule .element)))))
    (mark close)

/-- What a table or a set holds between its braces. -/
def members : PythonForm :=
  let merged := seq (mark "**") (rule .expression)
  let entry := either merged (all [rule .expression, mark ":", rule .expression])
  let comprehension := plus (rule .comprehension)
  seq
    (optional (anyOf [
      seq merged (more entry),
      all [mark "*", rule .expression, more (rule .element)],
      seq (rule .expression) (anyOf [
        all [mark ":", rule .expression, either comprehension (more entry)],
        comprehension, more (rule .element)])]))
    (mark "\x7d")

/-- The arguments of a call. -/
def arguments : PythonForm :=
  plain (all [mark "(",
    optional (seq (rule .argument) (either (plus (rule .comprehension)) (more (rule .argument)))),
    mark ")"])

/-- A part of a value: an attribute, or what stands in brackets. -/
def part : PythonForm :=
  either (wrap none (seq (mark ".") anyName))
    (wrap none (all [mark "[", listed (rule .subscript), mark "]"]))

/-- A part of a value, or a call. -/
def trailer : PythonForm := either part (wrap none arguments)

/-- A part of a value, or a call of which something is a part. -/
def innerTrailer : PythonForm :=
  either part (seq (wrap none arguments) (ahead (marks [".", "[", "("])))

/-- A name or a part of a value. -/
def place : PythonForm :=
  either (fold name innerTrailer) (scope (seq (rule .atom) (plus innerTrailer)))

/-- A place whose values are meant. -/
def spread : PythonForm := plain (seq (mark "*") place)

/-- An operator that computes. -/
def arithmeticOperator : PythonForm :=
  marks ["+", "-", "*", "/", "%", "**", "//", "@", "<<", ">>", "&", "|", "^"]

/-- An operator that compares. -/
def comparisonOperator : PythonForm :=
  anyOf [
    marks ["<", ">", "==", ">=", "<=", "!=", "<>"],
    word "in", seq (word "not") (word "in"), seq (word "is") (optional (word "not"))]

/-- The mark of an assignment that also computes. -/
def updateMark : PythonForm :=
  marks ["+=", "-=", "*=", "/=", "@=", "//=", "%=", "**=", ">>=", "<<=", "&=", "^=", "|="]

/-- What makes an assignment of the targets before it. -/
def assignmentStep : PythonForm :=
  anyOf [
    wrap (some .assignment) (seq (mark "=") (rule .assigned)),
    wrap none (seq updateMark (rule .assigned)),
    wrap (some .assignment)
      (all [mark ":", rule .type, optional (seq (mark "=") (rule .assigned))])]

/-- An assignment. -/
def assignment : PythonForm := scope (seq (role .left (rule .targets)) assignmentStep)

/-- Parts side by side, which are a node unless there is only one without a comma. -/
def sideBySide (part : PythonForm) : PythonForm :=
  scope (seq part
    (optional (wrap none
      (either (seq (plus (seq (mark ",") part)) (optional (mark ","))) (mark ",")))))

/-- The expressions of a statement side by side. -/
def bareExpressions : PythonForm :=
  node (some .expressionStatement)
    (seq (listed (rule .expression))
      (ahead (token fun t => t.shape == .lineEnd || t.isMark ";")))

/-- An assignment as a statement. -/
def assignmentStatement : PythonForm := node (some .expressionStatement) assignment

/-- A block below a colon. -/
def body : PythonForm := seq (mark ":") (role .body (rule .suite))

/-- An `else` branch. -/
def elseClause : PythonForm := plain (seq (word "else") body)

/-- A `finally` branch. -/
def finallyClause : PythonForm := plain (seq (word "finally") body)

/-- A handler. -/
def handler : PythonForm :=
  node (some .exceptClause) (all [word "except",
    optional (seq (rule .expression)
      (optional (seq (either (word "as") (mark ",")) (rule .expression)))), body])

/-- A handler of groups. -/
def groupHandler : PythonForm :=
  plain (all [word "except*", rule .expression, optional (seq (word "as") (rule .expression)),
    body])

/-- A list of imported names, perhaps in parentheses. -/
def importedNames : PythonForm :=
  either (rule .importList) (all [mark "(", rule .importList, mark ")"])

/-- A simple statement that starts with a word of its own. -/
def keywordStatements : List PythonForm := [
  node (some .importModules) (seq (word "import") (rule .importList)),
  plain (all [word "from", word "__future__", word "import", importedNames]),
  node (some .importNames) (all [word "from",
    role .module (either
      (node (some .relativeModule) (seq (plus (marks [".", "..."]))
        (either (ahead (word "import")) (rule .moduleName))))
      (rule .moduleName)),
    word "import",
    either (node (some .wildcard) (mark "*")) importedNames]),
  plain (all [word "assert", separated "," (rule .expression)]),
  plain (seq (word "return") (optional (rule .expressions))),
  plain (seq (word "del") (rule .expressions)),
  plain (all [word "raise",
    optional (seq (rule .expressions) (optional (seq (word "from") (rule .expression))))]),
  plain (word "pass"), plain (word "break"), plain (word "continue"),
  plain (all [word "global", separated "," anyName]),
  plain (all [word "nonlocal", separated "," anyName])]

/-- Statements that start with a word that may also be a name. -/
def softStatements : List PythonForm := [
  plain (all [word "print", mark ">>", separated "," (rule .expression), optional (mark ",")]),
  plain (seq (word "print") (listed (rule .expression))),
  plain (all [word "exec", either textLiteral name,
    optional (seq (word "in") (separated "," (rule .expression)))]),
  plain (all [word "type", rule .type, mark "=", rule .type])]

/-- A parameter of a function or, when `typed` is false, of a lambda. -/
def parameterForm (typed : Bool) : PythonForm :=
  let type := if typed then seq (mark ":") (rule .type) else token fun _ => false
  let splat := plain (seq (marks ["*", "**"]) anyName)
  anyOf [
    node (some .typedDefaultParameter)
      (all [role .name anyName, type, mark "=", rule .expression]),
    node (some .typedParameter) (seq anyName type),
    node (some .defaultParameter) (all [role .name anyName, mark "=", rule .expression]),
    anyName,
    node (some .typedParameter) (seq splat type),
    splat,
    marks ["*", "/"],
    node (some .defaultParameter) (all [role .name
      (plain (all [mark "(", optional (listed (rule .target)), mark ")"])), mark "=",
      rule .expression]),
    plain (all [mark "(", optional (listed (rule .target)), mark ")"])]

/-- Patterns between brackets. -/
def casePatterns (open_ close : String) : PythonForm :=
  plain (all [mark open_, optional (listed (rule .casePattern)), mark close])

/-- A number in a pattern. -/
def caseNumber : PythonForm :=
  let number := leaf none (·.shape == .number)
  plain (all [optional (mark "-"), number, optional (seq (marks ["+", "-"]) number)])

/-- A pattern for what is left of a value. -/
def caseRest : PythonForm := plain (seq (marks ["*", "**"]) anyName)

/-- A case of a `match` statement. -/
def caseClause : PythonForm :=
  node (some .caseClause) (all [word "case", listed (rule .casePattern),
    optional (plain (seq (word "if") (rule .expression))), body])

/-- A compound statement. -/
def compoundStatements : List PythonForm := [
  node (some .ifStatement) (all [word "if", rule .expression, body,
    many (node (some .elifClause) (all [word "elif", rule .expression, body])),
    optional elseClause]),
  node (some .forStatement) (all [optional (word "async"), word "for",
    rule .targets, word "in", rule .expressions, body, optional elseClause]),
  node (some .whileStatement) (all [word "while", rule .expression, body, optional elseClause]),
  plain (all [word "try", body,
    anyOf [
      all [plus handler, optional elseClause, optional finallyClause],
      all [plus groupHandler, optional elseClause, optional finallyClause],
      finallyClause]]),
  plain (all [optional (word "async"), word "with", listed (rule .expression), body]),
  plain (all [word "match", listed (rule .expression), mark ":",
    either (all [indent, many caseClause, dedent]) lineEnd]),
  rule .definition,
  rule .decorated]

/-- The forms of the rules. -/
def form : Rule → PythonForm
  | .file => many (rule .statement)
  | .statement => anyOf (compoundStatements ++ [rule .simple])
  | .simple =>
    let one := anyOf (keywordStatements ++ [assignmentStatement, bareExpressions,
      node (some .expressionStatement) (rule .yielding)] ++ softStatements)
    all [one, many (seq (mark ";") one), optional (mark ";"), lineEnd]
  | .suite =>
    anyOf [
      seq indent (rule .block),
      node (some .block) lineEnd,
      node (some .block) (rule .simple)]
  | .block => node (some .block) (seq (many (rule .statement)) dedent)
  | .definition =>
    either
      (node (some .function) (all [optional (word "async"), word "def", role .name anyName,
        optional (rule .typeParameters),
        role .parameters (plain (all [mark "(", optional (listed (rule .parameter)), mark ")"])),
        optional (seq (mark "->") (role .result (plain (rule .type)))), body]))
      (node (some .class_) (all [word "class", role .name anyName,
        optional (rule .typeParameters), optional arguments, body]))
  | .decorated =>
    plain (seq (plus (plain (all [mark "@", rule .expression, lineEnd]))) (rule .definition))
  | .expression =>
    either (scope (seq name (wrap none (seq (mark ":=") (rule .expression)))))
      (fold (rule .disjunction)
        (either
          (wrap (some .conditional)
            (all [word "if", rule .disjunction, word "else", rule .expression]))
          (wrap none (seq (word "as") (rule .primary)))))
  | .disjunction =>
    fold (rule .inversion)
      (wrap (some .junction) (seq (either (word "and") (word "or")) (rule .inversion)))
  | .inversion =>
    anyOf [
      plain (seq (word "not") (rule .inversion)),
      plain (all [word "lambda", optional (listed (rule .lambdaParameter)), mark ":",
        rule .expression]),
      rule .comparison]
  | .comparison =>
    fold (rule .arithmetic) (wrap none (seq comparisonOperator (rule .arithmetic)))
  | .arithmetic => fold (rule .unary) (wrap none (seq arithmeticOperator (rule .unary)))
  | .unary =>
    either (plain (seq (either (marks ["-", "+", "~"]) (word "await")) (rule .unary)))
      (rule .primary)
  | .primary => fold (either (rule .atom) spread) trailer
  | .atom =>
    anyOf [
      name,
      fold textLiteral (wrap none (plus textLiteral)),
      leaf none (fun t => t.shape == .number || t.isWord "None" || t.isWord "True"
        || t.isWord "False" || t.isMark "..."),
      plain (seq (mark "(") (either (seq (rule .yielding) (mark ")")) (elements ")"))),
      plain (seq (mark "[") (elements "]")),
      plain (seq (mark "\x7b") members)]
  | .element => either (plain (seq (mark "*") (rule .expression))) (rule .expression)
  | .comprehension =>
    either
      (plain (all [optional (word "async"), word "for", rule .targets, word "in",
        separated "," (rule .disjunction), optional (mark ",")]))
      (plain (seq (word "if") (rule .disjunction)))
  | .argument =>
    anyOf [
      plain (seq (marks ["*", "**"]) (rule .expression)),
      plain (all [argumentName, mark "=", rule .expression]),
      rule .expression]
  | .subscript =>
    let value := optional (rule .expression)
    let slice := all [mark ":", value, optional (seq (mark ":") value)]
    either (scope (seq (rule .expression) (optional (wrap none slice)))) (plain slice)
  | .expressions => sideBySide (rule .expression)
  | .target =>
    anyOf [
      place,
      spread,
      plain (all [mark "(", optional (listed (rule .target)), mark ")"]),
      plain (all [mark "[", optional (listed (rule .target)), mark "]"])]
  | .targets => sideBySide (rule .target)
  | .assigned => anyOf [rule .yielding, assignment, rule .expressions]
  | .field =>
    plain (all [mark "\x7b", either (rule .yielding) (rule .expressions), optional (mark "="),
      many (rule .field), mark "\x7d"])
  | .yielding =>
    plain (seq (word "yield")
      (either (seq (word "from") (rule .expression)) (optional (rule .expressions))))
  | .parameter => parameterForm true
  | .lambdaParameter => parameterForm false
  | .typeParameters =>
    plain (all [mark "[",
      listed (all [rule .type, optional (seq (mark ":") (rule .type)),
        optional (seq (mark "=") (rule .type))]), mark "]"])
  | .type => either (plain (seq (marks ["*", "**"]) anyName)) (rule .expression)
  | .casePattern =>
    fold
      (either (plain (all [anyName, mark "=", rule .caseUnion])) (rule .caseUnion))
      (wrap none (seq (word "as") anyName))
  | .caseUnion => fold (rule .caseItem) (wrap none (seq (mark "|") (rule .caseItem)))
  | .caseItem =>
    anyOf [
      caseRest,
      casePatterns "[" "]",
      casePatterns "(" ")",
      plain (all [mark "\x7b",
        optional (listed (either caseRest (all [rule .caseUnion, mark ":", rule .casePattern]))),
        mark "\x7d"]),
      fold textLiteral (wrap none (plus textLiteral)),
      leaf none (fun t => t.isWord "None" || t.isWord "True" || t.isWord "False"),
      caseNumber,
      fold (rule .moduleName) (wrap none (casePatterns "(" ")"))]
  | .moduleName => plain (separated "." anyName)
  | .importList =>
    listed
      (either
        (role .name (node (some .importAlias)
          (all [role .name (rule .moduleName), word "as", anyName])))
        (role .name (rule .moduleName)))

/-- The grammar of Python. -/
def grammar : RuleSystem Rule Kind := ⟨form, .comment⟩

end HouseStyle.Grammar.Python
