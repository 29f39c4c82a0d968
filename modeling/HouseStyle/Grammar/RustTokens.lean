import HouseStyle.Grammar.Cut
import HouseStyle.Text.Word

/-!
# The tokens of Rust

Angle brackets are tokens of one character each, since they close lists of types as well as
compare and shift.  Block comments nest.  A doc comment that starts with slashes holds the end of
its line.
-/

namespace HouseStyle.Grammar.Rust

open HouseStyle.Text

/-- The marks, longer ones before their beginnings. -/
def marks : List (List Char) :=
  (["..=", "...", "::", "->", "=>", "&&", "||", "==", "!=", "+=", "-=", "*=", "/=", "%=", "^=",
    "&=", "|=", "..", "+", "-", "*", "/", "%", "^", "!", "&", "|", "=", "<", ">", "@", ".", ",",
    ";", ":", "#", "$", "?", "~", "(", ")", "[", "]"].map String.toList)
    ++ [['\x7b'], ['\x7d'], ['\\']]

/-- The number of characters of a line comment after its first slash. -/
def lineCommentLength (rest : List Char) : Nat :=
  let length := (rest.takeWhile (· != '\n')).length
  let isDoc := match rest with
    | '/' :: '/' :: '/' :: _ => false
    | '/' :: '/' :: _ | '/' :: '!' :: _ => true
    | _ => false
  if isDoc && length < rest.length then length + 1 else length

/-- The number of digits and low lines that a text starts with. -/
def digitsLength (cs : List Char) : Nat := (cs.takeWhile fun c => c.isDigit || c == '_').length

/-- The number of letters, digits and low lines that a text starts with. -/
def suffixLength (cs : List Char) : Nat := (cs.takeWhile isWord).length

/-- The number of characters of a number after its first digit. -/
def numberLength (first : Char) (rest : List Char) : Nat :=
  let based := first == '0' && rest.head?.any fun c => c == 'x' || c == 'o' || c == 'b'
  if based then suffixLength rest
  else
    let whole := digitsLength rest
    let places := match rest.drop whole with
      | '.' :: c :: more => if c = '.' ∨ startsWord c then 0 else 1 + digitsLength (c :: more)
      | ['.'] => 1
      | _ => 0
    let power := match rest.drop (whole + places) with
      | e :: sign :: c :: _ =>
        if (e = 'e' ∨ e = 'E') ∧ (sign = '+' ∨ sign = '-') ∧ c.isDigit then 2 else 0
      | _ => 0
    whole + places + power + suffixLength (rest.drop (whole + places + power))

/-- The number of characters of a text literal that keeps its backslashes, after the letters
before it: number signs, a quote, the text, a quote and as many number signs. -/
def rawLength? (cs : List Char) : Option Nat :=
  let signs := cs.takeWhile (· == '#')
  match cs.drop signs.length with
  | '\x22' :: rest => (endLength? ('\x22' :: signs) rest).map (· + signs.length + 1)
  | _ => none

/-- The number of characters of a quoted literal or a label, after its first quote. -/
def quotedToken? : List Char → Option (Shape × Nat)
  | '\\' :: c :: rest =>
    (closedLength? '\x27' false ('\\' :: c :: rest)).map fun n => (.literal, n)
  | c :: '\x27' :: _ => if c = '\n' then none else some (.literal, 2)
  | c :: rest => if startsWord c then some (.label, suffixLength rest + 1) else none
  | [] => none

/-- The letters before text literals. -/
def literalLetters : List (List Char) := ["b", "c", "br", "cr", "r"].map String.toList

/-- The shape of the next token, and how many characters it has after its first one. -/
def next? (c : Char) (rest : List Char) : Option (Shape × Nat) :=
  match c, rest with
  | '/', '/' :: _ => some (.comment, lineCommentLength rest)
  | '/', '*' :: more => (commentLength? true 0 more).map fun n => (.comment, n + 1)
  | '\x22', _ => (closedLength? '\x22' true rest).map fun n => (.literal, n)
  | '\x27', _ => quotedToken? rest
  | 'b', '\x27' :: more => (closedLength? '\x27' false more).map fun n => (.literal, n + 1)
  | _, _ =>
    if c.isDigit then some (.number, numberLength c rest)
    else if startsWord c then
      let n := suffixLength rest
      let after := rest.drop n
      let word := c :: rest.take n
      match after with
      | '\x22' :: more =>
        if word.getLast? = some 'r' ∧ literalLetters.contains word then
          (rawLength? after).map fun k => (.literal, n + k)
        else if literalLetters.contains word then
          (closedLength? '\x22' true more).map fun k => (.literal, n + 1 + k)
        else some (.word, n)
      | '#' :: more =>
        if word.getLast? = some 'r' ∧ literalLetters.contains word then
          match rawLength? after with
          | some k => some (.literal, n + k)
          | none => some (.word, n + 1 + suffixLength more)
        else some (.word, n)
      | _ => some (.word, n)
    else (mark? marks (c :: rest)).map fun m => (.mark, m.length - 1)

/-- The tokens of a file. -/
def lex? (source : List Char) : Option (List Token) := cut? next? ⟨0, 0⟩ source

end HouseStyle.Grammar.Rust
