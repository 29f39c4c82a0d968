import HouseStyle.Grammar.Token
import HouseStyle.Text.Lines
import HouseStyle.Text.Word

/-!
# The tokens of Python

Lines matter: a statement ends with its line, and a block is what is indented below a colon.
Both are tokens without characters that stand right behind the last token or comment before
them.  A block ends when the next line of code is indented less, but comments that are indented
at least like the block still belong to it.  Inside brackets, and after a word or mark that
cannot end a statement, the end of a line is a blank.

Text literals are cut at their quotes, so that the expressions inside a formatted literal are
tokens like all others.
-/

namespace HouseStyle.Grammar.Python

open HouseStyle.Text

/-- What the text at a place is inside of. -/
inductive Frame where
  /-- Brackets that a mark closes. -/
  | bracket (close : Char)
  /-- A text literal with its quotes. -/
  | literal (quotes : List Char) (formatted raw : Bool)
  /-- An expression in a formatted literal. -/
  | field
  /-- The format of an expression in a formatted literal. -/
  | format
deriving DecidableEq, Repr

/-- The state of the lexer. -/
structure State where
  /-- The frames, the innermost first. -/
  frames : List Frame
  /-- The indentations of the open blocks, the innermost first. -/
  blocks : List Nat
  /-- The last token, if the current statement has one. -/
  last : Option Token
  /-- Where the last token or comment stops. -/
  edge : Place

/-- Whether a character is a blank inside a line. -/
def isGap (c : Char) : Bool :=
  c != '\n' && (isBlank c || c == '\uFEFF' || c == '\u2060' || c == '\u200B')

/-- The indentation of the next line of code, and of the first comment line before it, after
a place at `column`. -/
def ahead (column : Nat) (comment : Option Nat) : List Char → Nat × Option Nat
  | [] => (0, comment)
  | '\n' :: rest => ahead 0 comment rest
  | ' ' :: rest => ahead (column + 1) comment rest
  | '\t' :: rest => ahead (column + 8) comment rest
  | '\r' :: rest => ahead 0 comment rest
  | '\x0c' :: rest => ahead 0 comment rest
  | '\\' :: '\r' :: '\n' :: rest => ahead column comment rest
  | '\\' :: '\n' :: rest => ahead column comment rest
  | '#' :: rest => inComment (comment.getD column) rest
  | _ :: _ => (column, comment)
where
  /-- Pass over a comment. -/
  inComment (comment : Nat) : List Char → Nat × Option Nat
    | [] => (0, some comment)
    | '\n' :: rest => ahead 0 (some comment) rest
    | _ :: rest => inComment comment rest

/-- The marks, longer ones before their beginnings. -/
def marks : List (List Char) :=
  (["**=", "//=", ">>=", "<<=", "...", "!=", "==", "<=", ">=", "<>", "->", ":=", "+=", "-=",
    "*=", "/=", "%=", "&=", "|=", "^=", "@=", "**", "//", "<<", ">>", "+", "-", "*", "/", "%",
    "@", "&", "|", "^", "~", "<", ">", "(", ")", "[", "]", ",", ":", ".", ";", "="].map
    String.toList) ++ [['\x7b'], ['\x7d']]

/-- The words after which a statement goes on in the next line. -/
def openWords : List String := [
  "and", "or", "not", "in", "is", "if", "else", "import", "from", "def", "class", "del",
  "assert", "lambda", "as", "with", "while", "for", "elif", "async", "await", "global",
  "nonlocal"]

/-- The marks after which a statement does not go on in the next line. -/
def closeMarks : List String := [")", "]", "\x7d", ",", ":", ";", "...", "*"]

/-- Whether a token cannot end a statement. -/
def staysOpen (t : Token) : Bool :=
  match t.shape with
  | .word => openWords.contains t.text
  | .mark => !closeMarks.contains t.text
  | _ => false

/-- Close the blocks that end at a place, followed by some text: the tokens, and the blocks that
are still open. -/
def closeBlocks (edge : Place) (indent : Nat) (comment : Option Nat) :
    List Nat → List Token × List Nat
  | [] => ([], [])
  | block :: outer =>
    if indent < block ∧ (comment.map fun c => decide (c < block)).getD true then
      let (ts, open_) := closeBlocks edge indent comment outer
      (Token.empty edge .dedent :: ts, open_)
    else ([], block :: outer)

/-- The tokens at the end of a line, followed by some text. -/
def closeLine (s : State) (cs : List Char) : List Token × State :=
  let (indent, comment) := ahead 0 none cs
  let finish (ts : List Token) : List Token × State :=
    let (closed, blocks) := closeBlocks s.edge indent comment s.blocks
    (ts ++ closed, { s with blocks, last := none })
  match s.last with
  | none => finish []
  | some t =>
    if t.isMark ":" then
      if s.blocks.headD 0 < indent then
        ([Token.empty s.edge .indent], { s with blocks := indent :: s.blocks, last := none })
      else finish [Token.empty s.edge .lineEnd]
    else if staysOpen t && !cs.isEmpty then ([], s)
    else finish [Token.empty s.edge .lineEnd]

/-- The tokens at the end of a file. -/
def closeFile (s : State) (p : Place) : List Token :=
  (closeLine s []).1 ++ [Token.empty p .fileEnd]

/-- The letters that may stand before a text literal. -/
def isPrefixLetter (c : Char) : Bool := "rRbBuUfF".toList.contains c

/-- The quotes that start a text literal. -/
def quotes? : List Char → Option (List Char)
  | '\x22' :: '\x22' :: '\x22' :: _ => some ['\x22', '\x22', '\x22']
  | '\x27' :: '\x27' :: '\x27' :: _ => some ['\x27', '\x27', '\x27']
  | '\x22' :: _ => some ['\x22']
  | '\x27' :: _ => some ['\x27']
  | _ => none

/-- The letters and quotes that start a text literal. -/
def literalStart? (cs : List Char) : Option (List Char × List Char) :=
  let letters := cs.takeWhile isPrefixLetter
  (quotes? (cs.dropWhile isPrefixLetter)).map fun q => (letters, q)

/-- The length of a run of digits that may hold underscores. -/
def digitsLength (isDigit : Char → Bool) (cs : List Char) : Nat :=
  (cs.takeWhile fun c => isDigit c || c == '_').length

/-- The length of an exponent. -/
def exponentLength : List Char → Nat
  | e :: rest =>
    if e = 'e' ∨ e = 'E' then
      let signed := match rest with
        | '+' :: _ | '-' :: _ => 1
        | _ => 0
      let n := digitsLength Char.isDigit (rest.drop signed)
      if n = 0 then 0 else 1 + signed + n
    else 0
  | [] => 0

/-- The length of a number. -/
def numberLength (cs : List Char) : Nat :=
  let based := match cs with
    | '0' :: c :: rest =>
      if "xXoObB".toList.contains c then
        let n := digitsLength (fun d => d.isDigit || d.isAlpha) rest
        if n = 0 then 0 else n + 2
      else 0
    | _ => 0
  if 0 < based then based
  else
    let whole := digitsLength Char.isDigit cs
    let places := match cs.drop whole with
      | '.' :: rest => 1 + digitsLength Char.isDigit rest
      | _ => 0
    let power := exponentLength (cs.drop (whole + places))
    let mark := match cs.drop (whole + places + power) with
      | c :: _ => if "jJlL".toList.contains c then 1 else 0
      | [] => 0
    whole + places + power + mark

/-- Whether a number starts here. -/
def startsNumber : List Char → Bool
  | '.' :: c :: _ => c.isDigit
  | c :: _ => c.isDigit
  | [] => false

/-- The next token of code, its characters, and the frames behind it. -/
def codeToken? (frames : List Frame) (cs : List Char) : Option (Shape × List Char × List Frame) :=
  match literalStart? cs with
  | some (letters, q) =>
    let has (c d : Char) : Bool := letters.contains c || letters.contains d
    some (.textStart, letters ++ q, .literal q (has 'f' 'F') (has 'r' 'R') :: frames)
  | none =>
    if startsNumber cs then some (.number, cs.take (numberLength cs), frames)
    else
      match cs with
      | [] => none
      | c :: rest =>
        if startsWord c then
          let w := c :: rest.takeWhile isWord
          let w := if w = "except".toList ∧ (cs.drop w.length).head? = some '*' then w ++ ['*'] else w
          some (.word, w, frames)
        else
          match mark? marks cs with
          | none => none
          | some m =>
            let frames := match m with
              | ['('] => .bracket ')' :: frames
              | ['['] => .bracket ']' :: frames
              | ['\x7b'] => .bracket '\x7d' :: frames
              | [d] =>
                match frames with
                | .bracket close :: outer => if close = d then outer else frames
                | .field :: outer => if d = '\x7d' then outer else frames
                | _ => frames
              | _ => frames
            some (.mark, m, frames)

/-- The characters of a text literal that come before its end or the next expression in it;
`none` if the literal has no end. -/
def literalBody? (quotes : List Char) (formatted raw : Bool) : List Char → Option (List Char)
  | [] => none
  | '\\' :: 'N' :: '\x7b' :: rest =>
    if formatted && !raw then (nameBody? rest).map ('\\' :: 'N' :: '\x7b' :: ·)
    else (literalBody? quotes formatted raw ('\x7b' :: rest)).map ('\\' :: 'N' :: ·)
  | '\\' :: c :: rest => (literalBody? quotes formatted raw rest).map ('\\' :: c :: ·)
  | '\x7b' :: '\x7b' :: rest =>
    if formatted then (literalBody? quotes formatted raw rest).map ('\x7b' :: '\x7b' :: ·)
    else (literalBody? quotes formatted raw ('\x7b' :: rest)).map ('\x7b' :: ·)
  | c :: rest =>
    if quotes.isPrefixOf (c :: rest) then some []
    else if c = '\n' ∧ quotes.length = 1 then none
    else if formatted ∧ c = '\x7b' then some []
    else (literalBody? quotes formatted raw rest).map (c :: ·)
termination_by cs => cs.length
where
  /-- The name of a character, and the text after it. -/
  nameBody? : List Char → Option (List Char)
    | [] => none
    | c :: rest =>
      if c = '\x7d' then (literalBody? quotes formatted raw rest).map (c :: ·)
      else (nameBody? rest).map (c :: ·)
  termination_by cs => cs.length

/-- The characters of the format of an expression that come before its end or the next
expression in it. -/
def formatBody (cs : List Char) : List Char := cs.takeWhile fun c => c != '\x7b' && c != '\x7d'

/-- Whether the innermost frame is one in which the end of a line is a blank. -/
def joinsLines : List Frame → Bool
  | [] => false
  | _ => true

/-- The tokens of the text at a place; `none` if it cannot be cut into tokens. -/
def lexFrom : (fuel : Nat) → State → Place → List Char → Option (List Token)
  | 0, _, _, _ => none
  | fuel + 1, s, p, cs =>
    match s.frames with
    | .literal q formatted raw :: outer => do
      let body ← literalBody? q formatted raw cs
      let p := p.afterAll body
      let cs := cs.drop body.length
      if q.isPrefixOf cs then
        let t := Token.at p .textStop q
        let more ← lexFrom fuel { s with frames := outer, last := some t, edge := t.stop } t.stop
          (cs.drop q.length)
        pure (t :: more)
      else
        let t := Token.at p .mark ['\x7b']
        let more ← lexFrom fuel { s with frames := .field :: s.frames, last := some t } t.stop
          (cs.drop 1)
        pure (t :: more)
    | .format :: outer =>
      let body := formatBody cs
      let p := p.afterAll body
      match cs.drop body.length with
      | [] => none
      | c :: rest =>
        if c = '\x7d' then lexFrom fuel { s with frames := outer } p (c :: rest)
        else do
          let t := Token.at p .mark [c]
          let more ← lexFrom fuel { s with frames := .field :: s.frames, last := some t } t.stop rest
          pure (t :: more)
    | frames =>
      match cs with
      | [] => if frames.isEmpty then some (closeFile s p) else none
      | '\n' :: rest =>
        let next := p.after '\n'
        if joinsLines frames then lexFrom fuel s next rest
        else do
          let (ts, s) := closeLine s rest
          let more ← lexFrom fuel s next rest
          pure (ts ++ more)
      | '\\' :: '\n' :: rest => lexFrom fuel s ((p.after '\\').after '\n') rest
      | '\\' :: '\r' :: '\n' :: rest =>
        lexFrom fuel s (((p.after '\\').after '\r').after '\n') rest
      | c :: rest =>
        if isGap c then lexFrom fuel s (p.after c) rest
        else if c = '#' then do
          let t := Token.at p .comment ((c :: rest).takeWhile (· != '\n'))
          let more ← lexFrom fuel { s with edge := t.stop } t.stop
            ((c :: rest).dropWhile (· != '\n'))
          pure (t :: more)
        else if c = ':' ∧ frames.head? = some .field then
          lexFrom fuel { s with frames := .format :: frames } (p.after c) rest
        else if c = '!' ∧ frames.head? = some .field ∧ rest.head? ≠ some '=' then
          let letters := rest.takeWhile Char.isAlpha
          lexFrom fuel s ((p.after c).afterAll letters) (rest.drop letters.length)
        else do
          let (shape, body, frames) ← codeToken? frames (c :: rest)
          let t := Token.at p shape body
          let more ← lexFrom fuel { s with frames, last := some t, edge := t.stop } t.stop
            ((c :: rest).drop body.length)
          pure (t :: more)

/-- The tokens of a file. -/
def lex? (source : List Char) : Option (List Token) :=
  lexFrom (2 * source.length + 2) ⟨[], [0], none, ⟨0, 0⟩⟩ ⟨0, 0⟩ source

end HouseStyle.Grammar.Python
