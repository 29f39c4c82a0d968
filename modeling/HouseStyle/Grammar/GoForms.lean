import HouseStyle.Grammar.Form

/-!
# The grammar of Go

Statements may also stand outside of functions.  Types are read where expressions may stand,
since the two look alike.  Between a word such as `if` and its block no value may be made with
braces after a plain name, because the brace starts the block; inside of brackets it may.
-/

namespace HouseStyle.Grammar.Go

/-- The kinds of nodes of Go. -/
inductive Kind where
  /-- A comment. -/
  | comment
  /-- A name. -/
  | identifier
  /-- A function or a method. -/
  | function
  /-- A declaration of types. -/
  | typeDeclaration
  /-- One of the types that are declared. -/
  | typeSpec
  /-- The declaration of a variable by its first value. -/
  | shortVariable
  /-- Variables of a declaration. -/
  | variableSpec
  /-- Constants of a declaration. -/
  | constantSpec
  /-- Parameters or results of one type. -/
  | parameters
  /-- An import. -/
  | importSpec
  /-- The dot that imports all names. -/
  | dot
  /-- An `if` statement. -/
  | ifStatement
  /-- A `for` statement. -/
  | forStatement
  /-- A case. -/
  | case
  /-- Two operands of a conjunction or disjunction. -/
  | junction
deriving DecidableEq, Repr

/-- The rules of the grammar.  Where a flag is set, braces may follow a plain name. -/
inductive Rule where
  | file | statement | body | simple (braces : Bool) | expression (braces : Bool)
  | operand (braces : Bool) | primary (braces : Bool) | atom (braces : Bool)
  | expressions (braces : Bool) | value | element | type | signature | parameterList
  | fieldList | methodList | typeParameters | ifStatement
deriving DecidableEq, Repr

open Form

/-- A form of the grammar. -/
abbrev GoForm := Form Rule Kind

/-- A name, which is a word that is not reserved. -/
def name (reserved : List String) : GoForm :=
  leaf (some .identifier) fun t => t.shape == .word && !reserved.contains t.text

/-- A text literal. -/
def text : GoForm :=
  leaf none fun t => t.shape == .literal && !t.text.startsWith "\x27"

/-- The end of a line that is the end of a statement. -/
def lineEnd : GoForm := silent (·.shape == .lineEnd)

/-- The end of a statement. -/
def terminator : GoForm := either lineEnd (mark ";")

/-- What stands before the bracket that closes a list of statements or declarations. -/
def beforeClose : GoForm :=
  ahead (token fun t => t.isMark "\x7d" || t.isMark ")" || t.isWord "case" || t.isWord "default"
    || t.shape == .fileEnd)

/-- Forms that each stand in a statement of their own. -/
def terminated (f : GoForm) : GoForm :=
  many (either terminator (seq f (either terminator beforeClose)))

/-- Statements in braces. -/
def block : GoForm := plain (all [mark "\x7b", rule .body, mark "\x7d"])

/-- One declaration, or several of them in parentheses. -/
def grouped (f : GoForm) : GoForm :=
  either (all [mark "(", terminated f, mark ")"]) f

/-- The values that something is set to. -/
def values : GoForm := seq (mark "=") (rule (.expressions true))

/-- The result of a function. -/
def result : GoForm := optional (either (rule .parameterList) (rule .type))

/-- The mark of an assignment. -/
def assignmentMark : GoForm :=
  marks ["=", "+=", "-=", "*=", "/=", "%=", "&=", "|=", "^=", "<<=", ">>=", "&^="]

/-- The operators between operands that are no conjunctions or disjunctions. -/
def operator : GoForm :=
  marks ["+", "-", "*", "/", "%", "&", "|", "^", "<<", ">>", "&^", "==", "!=", "<", "<=", ">",
    ">="]

/-- Values between braces. -/
def literalValue : GoForm :=
  plain (all [mark "\x7b", optional (listed (rule .element)), mark "\x7d"])

/-- What may follow a value. -/
def trailer (name : GoForm) (braces : Bool) : GoForm :=
  let index := optional (rule (.expression true))
  anyOf ([
    wrap none (seq (mark ".") name),
    wrap none (all [mark ".", mark "(", rule .type, mark ")"]),
    wrap none (all [mark "(",
      optional (seq (separated "," (seq (rule (.expression true)) (optional (mark "..."))))
        (optional (mark ","))), mark ")"]),
    wrap none (all [mark "[", index,
      either (all [mark ":", index, optional (seq (mark ":") index)])
        (seq (many (seq (mark ",") (rule (.expression true)))) (optional (mark ","))),
      mark "]"])]
    ++ if braces then [wrap none literalValue] else [])

/-- Brackets before the type of elements. -/
def arrayStart : GoForm :=
  all [mark "[", optional (either (mark "...") (rule (.expression true))), mark "]"]

/-- A type that starts with a word or mark of its own. -/
def literalType : GoForm :=
  anyOf [
    plain (seq arrayStart (rule .type)),
    plain (all [word "map", mark "[", rule .type, mark "]", rule .type]),
    plain (all [word "struct", mark "\x7b", rule .fieldList, mark "\x7d"]),
    plain (all [word "interface", mark "\x7b", rule .methodList, mark "\x7d"]),
    plain (all [word "chan", optional (mark "<-"), rule .type]),
    plain (all [mark "<-", word "chan", rule .type])]

/-- A case with statements. -/
def caseOf (head : GoForm) : GoForm :=
  either
    (node (some .case) (all [word "case", head, mark ":", rule .body]))
    (plain (all [word "default", mark ":", rule .body]))

/-- The first part of the head of a statement. -/
def initially : GoForm := seq (optional (rule (.simple false))) (mark ";")

/-- The end of the head of a `switch` over types. -/
def typeGuard : GoForm :=
  all [rule (.primary false), mark ".", mark "(", word "type", mark ")"]

/-- What a case waits for: something that is sent, or something that is received. -/
def communication : GoForm :=
  seq (rule (.expressions true))
    (optional (seq (marks [":=", "=", "<-"]) (rule (.expression true))))

/-- The statements that start with a word of their own. -/
def keywordStatements (name : GoForm) : List GoForm := [
  plain (seq (word "package") name),
  plain (seq (word "import")
    (grouped (node (some .importSpec)
      (all [role .name (optional (either (node (some .dot) (mark ".")) name)),
        role .module text])))),
  plain (seq (word "const")
    (grouped (node (some .constantSpec)
      (seq (role .name (separated "," name)) (optional (seq (optional (rule .type)) values)))))),
  plain (seq (word "var")
    (grouped (node (some .variableSpec)
      (seq (separated "," (role .name name))
        (either values (seq (rule .type) (optional values))))))),
  node (some .typeDeclaration) (seq (word "type")
    (grouped (node (some .typeSpec)
      (seq (role .name name)
        (either (all [rule .typeParameters, optional (mark "="), rule .type])
          (seq (optional (mark "=")) (rule .type))))))),
  node (some .function) (all [word "func", optional (rule .parameterList), role .name name,
    optional (rule .typeParameters), rule .signature, optional block]),
  plain (seq (word "return") (optional (rule (.expressions true)))),
  plain (seq (either (word "go") (word "defer")) (rule (.expression true))),
  plain (seq (either (word "break") (word "continue")) (optional name)),
  plain (seq (word "goto") name),
  plain (word "fallthrough"),
  rule .ifStatement,
  node (some .forStatement) (all [word "for",
    anyOf [
      block,
      all [word "range", rule (.expression false), block],
      all [rule (.simple false), block],
      all [initially, optional (rule (.simple false)), mark ";", optional (rule (.simple false)),
        block]]]),
  plain (all [word "switch", optional initially,
    optional (seq (plain (rule (.expressions false))) (mark ":=")), typeGuard, mark "\x7b",
    many (caseOf (separated "," (rule .type))), mark "\x7d"]),
  plain (all [word "switch", optional initially, optional (rule (.simple false)), mark "\x7b",
    many (caseOf (rule (.expressions true))), mark "\x7d"]),
  plain (all [word "select", mark "\x7b", many (caseOf communication), mark "\x7d"])]

/-- The forms of the rules, given the words that are no names. -/
def form (reserved : List String) : Rule → GoForm
  | .file => terminated (rule .statement)
  | .statement =>
    anyOf (keywordStatements (name reserved) ++ [
      block,
      plain (all [name reserved, mark ":", either beforeClose (rule .statement)]),
      rule (.simple true)])
  | .body => terminated (rule .statement)
  | .ifStatement =>
    node (some .ifStatement) (all [word "if",
      anyOf [seq (rule (.simple false)) block, all [initially, rule (.simple false), block]],
      optional (seq (word "else") (either (rule .ifStatement) block))])
  | .simple braces =>
    let right := rule (.expressions braces)
    scope (seq (role .left (plain (rule (.expressions braces))))
      (anyOf [
        wrap none (all [marks [":=", "="], word "range", rule (.expression braces)]),
        wrap (some .shortVariable) (seq (mark ":=") right),
        wrap none (seq assignmentMark right),
        wrap none (marks ["++", "--"]),
        wrap none (seq (mark "<-") (rule (.expression braces))),
        nothing]))
  | .expressions braces => separated "," (rule (.expression braces))
  | .expression braces =>
    fold (rule (.operand braces))
      (either (wrap (some .junction) (seq (marks ["&&", "||"]) (rule (.operand braces))))
        (wrap none (seq operator (rule (.operand braces)))))
  | .operand braces =>
    either (plain (seq (marks ["+", "-", "!", "^", "*", "&", "<-", "~"]) (rule (.operand braces))))
      (rule (.primary braces))
  | .primary braces => fold (rule (.atom braces)) (trailer (name reserved) braces)
  | .atom _ =>
    anyOf [
      name reserved,
      leaf none fun t => t.shape == .literal || t.shape == .number,
      plain (all [mark "(", rule (.expression true), mark ")"]),
      plain (all [word "func", rule .signature, optional block]),
      fold literalType (wrap none literalValue)]
  | .value => either literalValue (rule (.expression true))
  | .element => seq (rule .value) (optional (seq (mark ":") (rule .value)))
  | .type =>
    fold
      (anyOf [
        plain (all [separated "." (name reserved),
          optional (all [mark "[", listed (rule .type), mark "]"])]),
        plain (seq (marks ["*", "~"]) (rule .type)),
        plain (all [mark "(", rule .type, mark ")"]),
        plain (seq (word "func") (rule .signature)),
        literalType])
      (wrap none (seq (mark "|") (rule .type)))
  | .signature => seq (rule .parameterList) result
  | .parameterList =>
    plain (all [mark "(",
      optional (listed
        (anyOf [
          plain (all [optional (name reserved), mark "...", rule .type]),
          node (some .parameters)
            (seq (separated "," (role .name (name reserved))) (rule .type)),
          node (some .parameters) (rule .type)])),
      mark ")"])
  | .fieldList =>
    terminated (plain (seq
      (either (seq (separated "," (name reserved)) (rule .type))
        (seq (optional (mark "*")) (rule .type)))
      (optional text)))
  | .methodList => terminated (either (plain (seq (name reserved) (rule .signature))) (rule .type))
  | .typeParameters =>
    plain (all [mark "[", listed (seq (separated "," (name reserved)) (rule .type)), mark "]"])

end HouseStyle.Grammar.Go
