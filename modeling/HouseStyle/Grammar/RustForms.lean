import HouseStyle.Grammar.Form

/-!
# The grammar of Rust

What is handed to a macro is a tree of brackets and tokens that is not looked into.  Between a
word such as `if` and its block no value may be made with braces after a path, because the brace
starts the block; inside of brackets it may.  A statement that ends with a block is not joined
with what follows, unless that is a dot or a question mark.
-/

namespace HouseStyle.Grammar.Rust

/-- The kinds of nodes of Rust. -/
inductive Kind where
  /-- A comment. -/
  | comment
  /-- An attribute of what follows. -/
  | attribute
  /-- A name. -/
  | identifier
  /-- A function with a body. -/
  | function
  /-- A structure, enumeration, union or trait. -/
  | typeItem
  /-- A `let` statement. -/
  | letStatement
  /-- A parameter with a type. -/
  | parameter
  /-- A constant or a static variable. -/
  | constant
  /-- A `use` declaration. -/
  | useDeclaration
  /-- All names of a module. -/
  | wildcard
  /-- A macro that is invoked. -/
  | macroInvocation
  /-- An `if` expression. -/
  | ifExpression
  /-- A loop. -/
  | loop
  /-- A case of a `match` expression. -/
  | matchArm
  /-- Two operands of a conjunction or disjunction. -/
  | junction
deriving DecidableEq, Repr

/-- The rules of the grammar.  Where a flag is set, braces may follow a path. -/
inductive Rule where
  | file | statement | item | block | tree | attribute | useTree | type | bounds
  | typeArguments | typeParameters | whereClause | parameters | fields | orderedFields | pattern
  | patterns | path | expression (braces : Bool) | comparison (braces : Bool)
  | operand (braces : Bool) | primary (braces : Bool) | atom (braces : Bool)
  | condition (braces : Bool) | blockLike | ifExpression
deriving DecidableEq, Repr

/-- The words that are no names. -/
def reserved : List String := [
  "as", "async", "await", "break", "const", "continue", "crate", "dyn", "else", "enum", "extern",
  "false", "fn", "for", "if", "impl", "in", "let", "loop", "match", "mod", "move", "mut", "pub",
  "ref", "return", "self", "static", "struct", "super", "trait", "true", "type", "unsafe", "use",
  "where", "while", "yield", "_"]

open Form

/-- A form of the grammar. -/
abbrev RustForm := Form Rule Kind

/-- A name. -/
def name : RustForm :=
  leaf (some .identifier) fun t => t.shape == .word && !reserved.contains t.text

/-- A name or a word that stands for a module or a type. -/
def segment : RustForm :=
  either name (leaf none fun t =>
    t.shape == .word && ["self", "super", "crate"].contains t.text)

/-- A literal. -/
def literal : RustForm :=
  leaf none fun t =>
    t.shape == .literal || t.shape == .number || t.isWord "true" || t.isWord "false"

/-- A lifetime or the label of a loop. -/
def label : RustForm := leaf none (·.shape == .label)

/-- Forms between braces. -/
def braced (f : RustForm) : RustForm := plain (all [mark "\x7b", f, mark "\x7d"])

/-- The attributes before something. -/
def attributes : RustForm := many (rule .attribute)

/-- The items of a module or a type. -/
def items : RustForm := braced (many (rule .item))

/-- Who may see an item. -/
def visibility : RustForm :=
  optional (plain (seq (word "pub") (optional
    (all [mark "(", either (all [word "in", rule .path])
      (anyOf [word "crate", word "self", word "super"]), mark ")"]))))

/-- Types that are parameters, if there are any. -/
def typeParameters : RustForm := optional (rule .typeParameters)

/-- Conditions on types, if there are any. -/
def whereClause : RustForm := optional (rule .whereClause)

/-- The type of what a function returns. -/
def returnType : RustForm := optional (seq (mark "->") (rule .type))

/-- The type after a colon. -/
def typed : RustForm := seq (mark ":") (rule .type)

/-- The bounds after a colon, if there are any. -/
def bounded : RustForm := optional (seq (mark ":") (rule .bounds))

/-- The name of the binary interface of a foreign function. -/
def foreign : RustForm := seq (word "extern") (optional literal)

/-- A macro that is invoked with a tree of tokens. -/
def invocation (tree : RustForm) : RustForm :=
  node (some .macroInvocation) (all [role .invoked (rule .path), mark "!", tree])

/-- The words before a function. -/
def modifiers : RustForm :=
  plain (plus (anyOf [word "async", word "default", word "const", word "unsafe", foreign]))

/-- A function, or only its signature. -/
def function : RustForm :=
  scope (seq
    (all [visibility, optional modifiers, word "fn", role .name name, typeParameters,
      rule .parameters, returnType, whereClause])
    (either (wrap (some .function) (rule .block)) (wrap none (mark ";"))))

/-- A variant of an enumeration. -/
def variant : RustForm :=
  plain (all [attributes, visibility, name,
    optional (either (rule .fields) (rule .orderedFields)),
    optional (seq (mark "=") (rule (.expression true)))])

/-- The declarations of types. -/
def typeItems : List RustForm := [
  all [visibility, word "struct", role .name name, typeParameters,
    anyOf [
      all [whereClause, rule .fields],
      all [rule .orderedFields, whereClause, mark ";"],
      mark ";"]],
  all [visibility, word "enum", role .name name, typeParameters, whereClause,
    braced (optional (listed variant))],
  all [visibility, word "union", role .name name, typeParameters, whereClause, rule .fields],
  all [visibility, optional (word "unsafe"), word "trait", role .name name, typeParameters,
    bounded, whereClause, items]]

/-- A value after an equals sign, if there is one. -/
def valued : RustForm := optional (seq (mark "=") (rule (.expression true)))

/-- The items that are no types and no functions. -/
def otherItems : List RustForm := [
  node (some .constant) (all [visibility, word "const",
    role .name (either name (leaf none (·.isWord "_"))), typed, valued, mark ";"]),
  node (some .constant) (all [visibility, word "static", optional (word "ref"),
    optional (word "mut"), role .name name, typed, valued, mark ";"]),
  node (some .useDeclaration) (all [visibility, word "use", role .module (rule .useTree),
    mark ";"]),
  plain (all [visibility, word "mod", name, either (mark ";") items]),
  plain (all [visibility, word "type", name, typeParameters, bounded, whereClause,
    optional (seq (mark "=") (rule .type)), whereClause, mark ";"]),
  plain (all [optional (word "default"), optional (word "unsafe"), word "impl", typeParameters,
    optional (mark "!"), rule .type, optional (seq (word "for") (rule .type)), whereClause, items]),
  plain (all [visibility, word "extern", word "crate", segment,
    optional (seq (word "as") (either name (word "_"))), mark ";"]),
  plain (all [visibility, optional (word "unsafe"), foreign, items]),
  plain (all [word "macro_rules", mark "!", name, rule .tree]),
  mark ";"]

/-- What keeps a statement open: a dot or a question mark. -/
def goesOn : RustForm := marks [".", "?"]

/-- The end of a path that makes an expression of it. -/
def pathEnd (braces : Bool) : RustForm :=
  let field := all [attributes,
    either (seq (mark "..") (rule (.expression true)))
      (seq (either name (leaf none (·.shape == .number)))
        (optional (seq (mark ":") (rule (.expression true)))))]
  anyOf ([wrap (some .macroInvocation) (seq (mark "!") (rule .tree))]
    ++ (if braces then [wrap none (braced (optional (listed field)))] else [])
    ++ [nothing])

/-- What may follow a value. -/
def trailer : RustForm :=
  anyOf [
    wrap none (all [mark ".", anyOf [name, word "await", literal],
      optional (seq (mark "::") (rule .typeArguments))]),
    wrap none (all [mark "(", optional (listed (seq attributes (rule (.expression true)))),
      mark ")"]),
    wrap none (all [mark "[", rule (.expression true), mark "]"]),
    wrap none (mark "?")]

/-- An operator between operands that is no conjunction or disjunction. -/
def operator : RustForm :=
  let angled (m : String) := all [mark m, optional (mark m), optional (mark "=")]
  anyOf [
    marks ["+", "-", "*", "/", "%", "^", "&", "|", "==", "!=", "=", "+=", "-=", "*=", "/=", "%=",
      "^=", "&=", "|="],
    angled "<", angled ">"]

/-- The mark of a range. -/
def rangeMark : RustForm := marks ["..=", "...", ".."]

/-- The end of a range, where a block may not be one. -/
def rangeEnd (braces : Bool) : RustForm :=
  if braces then rule (.operand braces)
  else seq (refuse (mark "\x7b")) (rule (.operand braces))

/-- What an operator and the next operand make of the operands before them. -/
def operatorSteps (braces : Bool) : List RustForm := [
  wrap none (seq operator (rule (.operand braces))),
  wrap none (seq rangeMark (optional (rangeEnd braces))),
  wrap none (seq (word "as") (rule .type))]

/-- What the conditions are that follow a pattern that is matched. -/
def matched (braces : Bool) : RustForm :=
  plain (all [word "let", rule .patterns, mark "=", rule (.comparison braces)])

/-- The forms of the rules. -/
def form : Rule → RustForm
  | .file => many (rule .statement)
  | .statement =>
    anyOf [
      rule .item,
      node (some .letStatement) (all [word "let", optional (word "mut"),
        role .pattern (rule .pattern), optional typed,
        optional (all [mark "=", rule (.expression true),
          optional (seq (word "else") (rule .block))]), mark ";"]),
      seq (invocation (seq (ahead (mark "\x7b")) (rule .tree))) (refuse goesOn),
      seq (rule .blockLike) (refuse goesOn),
      seq (rule (.expression true)) (either (mark ";") (ahead (mark "\x7d")))]
  | .item => anyOf (rule .attribute :: function :: typeItems.map (node (some .typeItem))
      ++ otherItems ++ [seq (invocation (rule .tree)) (mark ";"),
        seq (invocation (seq (ahead (mark "\x7b")) (rule .tree))) (refuse goesOn)])
  | .block => braced (seq (many (rule .attribute)) (many (rule .statement)))
  | .tree =>
    let inside := many (either (rule .tree) (token fun t => t.shape != .fileEnd
      && !(t.shape == .mark && ["(", ")", "[", "]", "\x7b", "\x7d"].contains t.text)))
    plain (anyOf [
      all [mark "(", inside, mark ")"], all [mark "[", inside, mark "]"],
      all [mark "\x7b", inside, mark "\x7d"]])
  | .attribute =>
    either (node (some .attribute) (all [mark "#", ahead (mark "["), rule .tree]))
      (plain (all [mark "#", mark "!", ahead (mark "["), rule .tree]))
  | .useTree =>
    let some_ := leaf none fun t =>
      t.shape == .word && (!reserved.contains t.text || ["self", "super", "crate"].contains t.text)
    let stem := seq (optional (mark "::")) (optional (separated "::" some_))
    anyOf [
      node (some .wildcard) (all [stem, optional (mark "::"), mark "*"]),
      plain (all [stem, optional (mark "::"), braced (optional (listed (rule .useTree)))]),
      plain (seq stem (optional (seq (word "as") (either name (word "_")))))]
  | .type =>
    let qualified := either (seq (mark "<") (all [rule .type,
      optional (seq (word "as") (rule .type)), mark ">"])) nothing
    let arguments := all [mark "(", optional (listed (rule .type)), mark ")", returnType]
    anyOf [
      plain (all [marks ["&", "&&"], optional label, optional (word "mut"), rule .type]),
      plain (all [mark "*", either (word "const") (word "mut"), rule .type]),
      plain (all [mark "(", optional (listed (rule .type)), mark ")"]),
      plain (all [mark "[", rule .type, optional (seq (mark ";") (rule (.expression true))),
        mark "]"]),
      plain (either (mark "!") (word "_")),
      plain (seq (either (word "dyn") (word "impl")) (rule .bounds)),
      plain (all [word "for", rule .typeParameters, rule .type]),
      plain (all [optional modifiers, word "fn", rule .parameters, returnType]),
      plain (all [qualified, optional (mark "::"),
        separated "::" (seq segment (optional (either (seq (optional (mark "::"))
          (rule .typeArguments)) arguments))),
        optional (seq (mark "!") (rule .tree))])]
  | .bounds =>
    separated "+" (anyOf [label,
      plain (seq (either (mark "?") (seq (mark "~") (word "const"))) (rule .type)),
      plain (all [mark "(", rule .bounds, mark ")"]), rule .type])
  | .typeArguments =>
    plain (all [mark "<",
      optional (listed (anyOf [
        label,
        all [name, optional (rule .typeArguments), mark "=", either (rule .type) literal],
        all [name, mark ":", rule .bounds],
        seq (optional (mark "-")) literal,
        rule .type,
        rule .block])), mark ">"])
  | .typeParameters =>
    plain (all [mark "<",
      optional (listed (plain (seq attributes (anyOf [
        seq label bounded,
        all [word "const", name, typed, optional (seq (mark "=") (either (rule .block)
          (seq (optional (mark "-")) (either literal name))))],
        all [name, bounded, optional (seq (mark "=") (rule .type))]])))), mark ">"])
  | .whereClause =>
    plain (seq (word "where") (optional (listed
      (plain (seq (either label (rule .type)) (seq (mark ":") (optional (rule .bounds))))))))
  | .parameters =>
    let self_ := all [optional (seq (mark "&") (optional label)), optional (word "mut"),
      word "self", refuse (mark ":")]
    plain (all [mark "(",
      optional (listed (seq attributes (anyOf [
        plain self_,
        node (some .parameter) (all [optional (word "mut"),
          role .pattern (either (rule .pattern) (word "self")), typed]),
        plain (mark "..."),
        rule .type]))), mark ")"])
  | .fields =>
    braced (optional (listed (plain (all [attributes, visibility, name, typed]))))
  | .orderedFields =>
    plain (all [mark "(", optional (listed (all [attributes, visibility, rule .type])), mark ")"])
  | .patterns =>
    seq (optional (mark "|")) (fold (rule .pattern) (wrap none (seq (mark "|") (rule .pattern))))
  | .pattern =>
    let negative := plain (seq (optional (mark "-")) literal)
    let bound := either negative (rule .path)
    let inner := optional (listed (rule .patterns))
    let field := all [attributes, either (mark "..")
      (all [optional (word "ref"), optional (word "mut"),
        either name literal, optional (seq (mark ":") (rule .patterns))])]
    anyOf [
      plain (seq (word "ref") (rule .pattern)),
      plain (seq (word "mut") (rule .pattern)),
      plain (all [mark "&", optional (word "mut"), rule .pattern]),
      plain (seq (mark "&&") (plain (seq (optional (word "mut")) (rule .pattern)))),
      plain (all [mark "(", inner, mark ")"]),
      plain (all [mark "[", inner, mark "]"]),
      token (·.isWord "_"),
      plain (seq rangeMark (optional bound)),
      plain (seq (word "const") (rule .block)),
      invocation (rule .tree),
      plain (all [name, mark "@", rule .pattern]),
      plain (seq (plain (rule .path)) (braced (optional (listed field)))),
      fold bound (either (wrap none (seq rangeMark (optional bound)))
        (wrap none (all [mark "(", inner, mark ")"])))]
  | .path =>
    let start := either
      (plain (all [mark "<", rule .type, optional (seq (word "as") (rule .type)), mark ">",
        mark "::", segment]))
      (seq (optional (mark "::")) segment)
    fold start (wrap none (seq (mark "::") (either segment (rule .typeArguments))))
  | .condition braces =>
    let more := many (seq (mark "&&") (either (matched braces) (rule (.comparison braces))))
    either (seq (matched braces) more)
      (seq (rule (.expression braces)) (optional (all [mark "&&", matched braces, more])))
  | .expression braces =>
    fold (rule (.operand braces))
      (anyOf (wrap (some .junction) (seq (marks ["&&", "||"]) (rule (.operand braces)))
        :: operatorSteps braces))
  | .comparison braces => fold (rule (.operand braces)) (anyOf (operatorSteps braces))
  | .operand braces =>
    let deep := rule (.expression braces)
    anyOf [
      plain (all [marks ["&", "&&"], optional (seq (word "raw") (word "const")),
        optional (word "mut"), rule (.operand braces)]),
      plain (seq (marks ["-", "!", "*"]) (rule (.operand braces))),
      plain (seq rangeMark (optional (rangeEnd braces))),
      plain (all [optional (word "static"), optional (word "async"), optional (word "move"),
        either (mark "||")
          (all [mark "|", optional (listed (seq attributes
            (either (node (some .parameter) (all [optional (word "mut"),
              role .pattern (rule .pattern), typed])) (rule .pattern)))), mark "|"]),
        either (all [mark "->", rule .type, rule .block]) deep]),
      plain (seq (word "return") (optional deep)),
      plain (all [word "break", optional label, optional
        (if braces then deep else seq (refuse (mark "\x7b")) deep)]),
      plain (seq (word "continue") (optional label)),
      rule (.primary braces)]
  | .primary braces => fold (rule (.atom braces)) trailer
  | .atom braces =>
    let several := listed (seq attributes (rule (.expression true)))
    anyOf [
      literal,
      rule .blockLike,
      plain (all [mark "(", optional several, mark ")"]),
      plain (all [mark "[",
        optional (seq several (optional (seq (mark ";") (rule (.expression true))))), mark "]"]),
      scope (seq (role .invoked (rule .path)) (pathEnd braces)),
      plain (seq (plus (rule .attribute)) (rule (.expression true)))]
  | .ifExpression =>
    node (some .ifExpression) (all [word "if", rule (.condition false), rule .block,
      optional (seq (word "else") (either (rule .ifExpression) (rule .block)))])
  | .blockLike =>
    let labelled := optional (seq label (mark ":"))
    let arm := node (some .matchArm) (all [attributes,
      plain (seq (rule .patterns) (optional (seq (word "if") (rule (.condition true))))),
      mark "=>",
      either (all [rule .blockLike, refuse goesOn, optional (mark ",")])
        (seq (rule (.expression true)) (either (mark ",") (ahead (mark "\x7d"))))])
    anyOf [
      rule .ifExpression,
      plain (all [word "match", rule (.expression false), braced (seq attributes (many arm))]),
      node (some .loop) (all [labelled, word "while", rule (.condition false), rule .block]),
      node (some .loop) (all [labelled, word "for", rule .patterns, word "in",
        rule (.expression false), rule .block]),
      node (some .loop) (all [labelled, word "loop", rule .block]),
      plain (all [word "unsafe", rule .block]),
      plain (all [word "const", rule .block]),
      plain (all [word "async", optional (word "move"), rule .block]),
      plain (seq labelled (rule .block))]

/-- The grammar of Rust. -/
def grammar : RuleSystem Rule Kind := ⟨form, .comment⟩

end HouseStyle.Grammar.Rust
