import HouseStyle.Survey.Facts
import HouseStyle.Text.Lines

/-!
# Lines of code without texts and comments

Source files with braces are read line by line.  Before that the contents of text literals are
blanked out and comments are removed, so that no brace and no word inside them counts.  One pass
from left to right does this; it is in one of five modes, of which only template literals and
block comments go on over the end of a line.

The depth of a line is the number of braces that are open where it starts.

The pass says what the code of a file is.  Files are read by looking ahead instead
(`Script/Lookahead`), with the same result.
-/

namespace HouseStyle.Script

/-- What the scanner is inside of. -/
inductive Mode where
  /-- Code. -/
  | code
  /-- A text in single quotes. -/
  | single
  /-- A text in double quotes. -/
  | double
  /-- A template literal. -/
  | template
  /-- A block comment. -/
  | comment
deriving DecidableEq, Repr

namespace Mode

/-- The mode of the literal that a character opens. -/
def opened? (c : Char) : Option Mode :=
  if c = '\x27' then some single
  else if c = '\x22' then some double
  else if c = '\x60' then some template
  else none

/-- The character that ends a literal. -/
def delimiter? : Mode → Option Char
  | single => some '\x27'
  | double => some '\x22'
  | template => some '\x60'
  | _ => none

/-- The literal that is counted when a mode is entered. -/
def counted : Mode → QuoteCount
  | single => ⟨1, 0⟩
  | double => ⟨0, 1⟩
  | _ => .none

/-- The mode at the start of the next line. -/
def atLineEnd : Mode → Mode
  | template => template
  | comment => comment
  | _ => code

end Mode

/-- What the scanner makes of a line. -/
structure Scanned where
  /-- The code. -/
  code : List Char
  /-- The literals that were opened. -/
  quotes : QuoteCount
  /-- The mode at the end of the line. -/
  mode : Mode
deriving DecidableEq, Repr

namespace Scanned

/-- Put a character in front of the code. -/
def emit (c : Char) (s : Scanned) : Scanned := { s with code := c :: s.code }

/-- Count a literal. -/
def count (q : QuoteCount) (s : Scanned) : Scanned := { s with quotes := q + s.quotes }

end Scanned

/-- Scan a line that starts in a mode. -/
def scanLine : Mode → List Char → Scanned
  | mode, [] => ⟨[], .none, mode⟩
  | .comment, '*' :: '/' :: rest => (scanLine .code rest).emit ' '
  | .comment, _ :: rest => scanLine .comment rest
  | .code, '/' :: '/' :: _ => ⟨[], .none, .code⟩
  | .code, '/' :: '*' :: rest => scanLine .comment rest
  | .code, c :: rest =>
    match Mode.opened? c with
    | some literal => ((scanLine literal rest).emit c).count literal.counted
    | none => (scanLine .code rest).emit c
  | literal, '\\' :: _ :: rest => ((scanLine literal rest).emit ' ').emit ' '
  | literal, c :: rest =>
    if literal.delimiter? = some c then (scanLine .code rest).emit c
    else (scanLine literal rest).emit ' '

/-- The number of opening braces. -/
def opens (code : List Char) : Nat := code.count '\x7b'

/-- The number of closing braces. -/
def closes (code : List Char) : Nat := code.count '\x7d'

/-- The depth after some code that starts at a depth. -/
def depthAfter (depth : Nat) (code : List Char) : Nat := depth + opens code - closes code

/-- A line of a file. -/
structure Line where
  /-- The line as it is written. -/
  raw : List Char
  /-- Its code. -/
  code : List Char
  /-- The number of braces that are open where it starts. -/
  depth : Nat
deriving DecidableEq, Repr

/-- Scan lines, the first of which starts in a mode and at a depth. -/
def scanFrom (mode : Mode) (depth : Nat) : List (List Char) → List Line × QuoteCount
  | [] => ([], .none)
  | raw :: more =>
    let s := scanLine mode raw
    let (lines, quotes) := scanFrom s.mode.atLineEnd (depthAfter depth s.code) more
    (⟨raw, s.code, depth⟩ :: lines, s.quotes + quotes)

/-- The lines of a file and its literals. -/
def scan (source : List Char) : List Line × QuoteCount :=
  scanFrom .code 0 (Text.lines source)

end HouseStyle.Script
