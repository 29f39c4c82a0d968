import HouseStyle.Grammar.Cut
import HouseStyle.Text.Word

/-!
# The tokens of Go

A statement ends with its line when the last token of the line can end a statement: a name, a
literal, a closing bracket, a step mark, or one of the words that stand alone.
-/

namespace HouseStyle.Grammar.Go

open HouseStyle.Text

/-- The marks, longer ones before their beginnings. -/
def marks : List (List Char) :=
  (["<<=", ">>=", "&^=", "...", "&&", "||", "<-", "++", "--", "==", "!=", "<=", ">=", ":=", "+=",
    "-=", "*=", "/=", "%=", "&=", "|=", "^=", "<<", ">>", "&^", "+", "-", "*", "/", "%", "&", "|",
    "^", "<", ">", "=", "!", "(", ")", "[", "]", ",", ";", ".", ":", "~"].map String.toList)
    ++ [['\x7b'], ['\x7d']]

/-- The number of characters of a number after its first ones. -/
def numberLength (hexadecimal : Bool) : List Char → Nat
  | e :: sign :: rest =>
    let isPower := if hexadecimal then e == 'p' || e == 'P' else e == 'e' || e == 'E'
    if isPower && (sign == '+' || sign == '-') then numberLength hexadecimal rest + 2
    else if e.isAlphanum || e == '_' || e == '.' then numberLength hexadecimal (sign :: rest) + 1
    else 0
  | [c] => if c.isAlphanum || c == '_' || c == '.' then 1 else 0
  | [] => 0

/-- The shape of the next token, and how many characters it has after its first one. -/
def next? (c : Char) (rest : List Char) : Option (Shape × Nat) :=
  match c, rest with
  | '/', '/' :: _ => some (.comment, (rest.takeWhile (· != '\n')).length)
  | '/', '*' :: more => (commentLength? false 0 more).map fun n => (.comment, n + 1)
  | '\x22', _ => (closedLength? '\x22' false rest).map fun n => (.literal, n)
  | '\x27', _ => (closedLength? '\x27' false rest).map fun n => (.literal, n)
  | '\x60', _ => (endLength? ['\x60'] rest).map fun n => (.literal, n)
  | _, _ =>
    if c.isDigit || (c == '.' && (rest.head?.any Char.isDigit)) then
      let hexadecimal := c == '0' && (rest.head? == some 'x' || rest.head? == some 'X')
      some (.number, numberLength hexadecimal rest)
    else if startsWord c then some (.word, (rest.takeWhile isWord).length)
    else (mark? marks (c :: rest)).map fun m => (.mark, m.length - 1)

/-- The words that are no names. -/
def reserved : List String := [
  "break", "case", "chan", "const", "continue", "default", "defer", "else", "fallthrough", "for",
  "func", "go", "goto", "if", "import", "interface", "map", "package", "range", "return",
  "select", "struct", "switch", "type", "var"]

/-- Whether a token can end a statement. -/
def canEnd (t : Token) : Bool :=
  match t.shape with
  | .word =>
    !reserved.contains t.text || ["break", "continue", "fallthrough", "return"].contains t.text
  | .number | .literal => true
  | .mark => [")", "]", "\x7d", "++", "--"].contains t.text
  | _ => false

/-- Put the ends of statements between tokens, given the token that a line may end with. -/
def endStatements (last : Option Token) : List Token → List Token
  | [] => []
  | t :: rest =>
    let ended := last.any fun l => l.stop.row < t.start.row || t.shape == .fileEnd
    let last := if ended then none else last
    let more :=
      if t.shape = .comment then t :: endStatements last rest
      else t :: endStatements (if canEnd t then some t else none) rest
    if ended then Token.empty t.start .lineEnd :: more else more

/-- The tokens of a file. -/
def lex? (source : List Char) : Option (List Token) :=
  (cut? next? ⟨0, 0⟩ source).map (endStatements none)

end HouseStyle.Grammar.Go
