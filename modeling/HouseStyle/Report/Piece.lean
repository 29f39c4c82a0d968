import HouseStyle.Text.Lines

/-!
# Pieces of a report

A report is a sequence of pieces of text, some of which are set in a style.  On a terminal a
styled piece stands between two control sequences; elsewhere the same text is written without
them.  A piece can be widened with blanks, which are set in its style too.
-/

namespace HouseStyle

/-- The styles of a piece of text. -/
inductive Style where
  /-- Bold. -/
  | bold
  /-- Faint. -/
  | dimmed
  /-- Red. -/
  | red
  /-- Green. -/
  | green
  /-- Yellow. -/
  | yellow
  /-- Blue. -/
  | blue
  /-- Cyan. -/
  | cyan
deriving DecidableEq, Repr

/-- The code of a style in a control sequence. -/
def Style.code : Style → String
  | bold => "1"
  | dimmed => "2"
  | red => "31"
  | green => "32"
  | yellow => "33"
  | blue => "34"
  | cyan => "36"

/-- A piece of a report. -/
structure Piece where
  /-- The text. -/
  text : String
  /-- The styles, of which bold or faint come first. -/
  styles : List Style
  /-- The least number of characters. -/
  width : Nat
deriving DecidableEq, Repr

namespace Piece

/-- A piece without a style. -/
def plain (text : String) : Piece := ⟨text, [], 0⟩

/-- A piece in some styles. -/
def styled (styles : List Style) (text : String) : Piece := ⟨text, styles, 0⟩

/-- A piece that is widened with blanks. -/
def wide (width : Nat) (p : Piece) : Piece := { p with width }

/-- The control sequence that ends all styles. -/
def reset : String := "\x1b[0m"

/-- The control sequence that starts the styles of a piece. -/
def start (p : Piece) : String := "\x1b[" ++ Text.join ";" (p.styles.map Style.code) ++ "m"

/-- Start some styles again behind every control sequence in a text that ends them. -/
def restart (sequence : List Char) : List Char → List Char
  | [] => []
  | c :: rest =>
    if Text.startsWith (c :: rest) reset then
      reset.toList ++ sequence ++ restart sequence (rest.drop (reset.length - 1))
    else c :: restart sequence rest
termination_by cs => cs.length
decreasing_by all_goals simp_wf; try omega

/-- The text of a piece, with or without control sequences. -/
def render (coloured : Bool) (p : Piece) : String :=
  if coloured && !p.styles.isEmpty then
    let text := String.ofList (restart p.start.toList p.text.toList)
    p.start ++ Text.padEnd p.width text ++ reset
  else Text.padEnd p.width p.text

end Piece

/-- A report. -/
abbrev Report := List Piece

namespace Report

/-- The text of a report, with or without control sequences. -/
def render (coloured : Bool) (r : Report) : String := String.join (r.map (Piece.render coloured))

/-- A line of some pieces. -/
def line (pieces : List Piece) : Report := pieces ++ [.plain "\n"]

/-- A line of plain text. -/
def plainLine (text : String) : Report := [.plain (text ++ "\n")]

/-- An empty line. -/
def blank : Report := [.plain "\n"]

end Report

end HouseStyle
