import HouseStyle.Survey.Facts
import HouseStyle.Text.Lines

/-!
# Measuring text

What can be measured without knowing the language: the lengths of the lines, what stands before
their first character, and which format a doc comment has.  Blank lines are left out, and so
are the blanks at the end of a line.  A step is the number of columns by which a line that
starts with spaces stands deeper than the line before it.
-/

namespace HouseStyle.Survey

open HouseStyle.Text

/-- Whether a character indents a line. -/
def isIndent (c : Char) : Bool := c == ' ' || c == '\t'

/-- The characters that indent a line. -/
def margin (line : List Char) : List Char := line.takeWhile isIndent

/-- The lines that are not blank. -/
def filledLines (source : List Char) : List (List Char) :=
  (lines source).filter fun line => !allBlank line

/-- The column from which the next line is measured. -/
def column (margin : List Char) : Nat :=
  if margin.head? = some '\t' then 0 else margin.length

/-- The indentation of the margins of lines, the line before them standing at `previous`. -/
def marginsIndentation (previous : Nat) : List (List Char) → Indentation
  | [] => .none
  | m :: rest =>
    let later := marginsIndentation (column m) rest
    match m with
    | ' ' :: _ =>
      { later with
        spaceLines := later.spaceLines + 1
        steps :=
          if previous < m.length then later.steps.add (Nat.repr (m.length - previous))
          else later.steps }
    | '\t' :: _ => { later with tabLines := later.tabLines + 1 }
    | _ => later

/-- The indentation of a text. -/
def indentation (source : List Char) : Indentation :=
  marginsIndentation 0 ((filledLines source).map margin)

/-- The lines without the blanks at their ends, of which more than blanks is left. -/
def endedLines (source : List Char) : List (List Char) :=
  ((lines source).map trimEnd).filter fun line => !(trim line).isEmpty

/-- The lengths of the lines of a text. -/
def lineStats (source : List Char) : LineStats :=
  LineStats.sum ((endedLines source).map fun line => .ofLength line.length)

/-- The formats of doc comments. -/
inductive DocFormat where
  /-- Sections underlined with dashes. -/
  | numpy
  /-- Fields between colons. -/
  | sphinx
  /-- Sections that end with a colon. -/
  | google
  /-- Tags that start with an at sign. -/
  | jsdoc
  /-- Markdown sections of Rust. -/
  | rustdoc
  /-- Plain sentences before a declaration of Go. -/
  | godoc
  /-- No sections. -/
  | plain
deriving DecidableEq, Repr

/-- The label of a format. -/
def DocFormat.label : DocFormat → String
  | numpy => "numpy"
  | sphinx => "sphinx"
  | google => "google"
  | jsdoc => "jsdoc"
  | rustdoc => "rustdoc"
  | godoc => "godoc"
  | plain => "plain"

/-- The format of a doc comment, by the sections in its text. -/
def docFormat (doc : List Char) : DocFormat :=
  if holds doc "Parameters\n" && holds doc "----" then .numpy
  else if [":param", ":return", ":rtype", ":raises"].any (holds doc) then .sphinx
  else if ["Args:", "Returns:", "Raises:", "Yields:"].any (holds doc) then .google
  else if ["@param", "@returns", "@return", "@throws"].any (holds doc) then .jsdoc
  else .plain

/-- The names that a file gives by its own name: none for special files. -/
def fileNames (path : SourcePath) : List Named :=
  let stem := Path.stem path.fileName
  if startsWith stem.toList "__" then [] else [⟨.file, stem⟩]

/-- A doc comment of a declaration. -/
structure Doc where
  /-- How the comment begins. -/
  delimiter : String
  /-- Its format. -/
  format : DocFormat
deriving DecidableEq, Repr

/-- One thing that is noted about a file.  A doc comment is noted by how it begins and by its
format, and once more by what is said about the function or type that has it. -/
inductive Finding where
  /-- A function. -/
  | function (f : FunctionFacts)
  /-- A type. -/
  | type (t : TypeFacts)
  /-- How a doc comment begins. -/
  | docDelimiter (label : String)
  /-- The format of a doc comment. -/
  | docFormat (format : DocFormat)
  /-- A name. -/
  | name (n : Named)
  /-- An import. -/
  | imported (i : ImportFacts)
  /-- Text literals. -/
  | quotes (q : QuoteCount)
  /-- A reference to a test framework. -/
  | framework (label : String)

namespace Finding

/-- The function of a finding. -/
def function? : Finding → Option FunctionFacts
  | function f => some f
  | _ => none

/-- The type of a finding. -/
def type? : Finding → Option TypeFacts
  | type t => some t
  | _ => none

/-- The import of a finding. -/
def import? : Finding → Option ImportFacts
  | imported i => some i
  | _ => none

/-- The test framework of a finding. -/
def framework? : Finding → Option String
  | framework label => some label
  | _ => none

/-- How the doc comment of a finding begins. -/
def docDelimiter? : Finding → Option String
  | docDelimiter label => some label
  | _ => none

/-- The format of the doc comment of a finding. -/
def docFormat? : Finding → Option DocFormat
  | docFormat format => some format
  | _ => none

/-- The text literals of a finding. -/
def literals : Finding → QuoteCount
  | quotes q => q
  | _ => .none

/-- The name that a finding gives. -/
def named? : Finding → Option Named
  | name n => some n
  | _ => none

end Finding

/-- The facts about a file of which some things were found. -/
def fileFacts (path : SourcePath) (language : String) (source : List Char) (found : List Finding) :
    FileFacts :=
  { path := path.text
    language
    totalLines := (lines source).length
    isTestFile := path.isTest
    functions := found.filterMap Finding.function?
    types := found.filterMap Finding.type?
    names := Names.ofList (fileNames path ++ found.filterMap Finding.named?)
    imports := found.filterMap Finding.import?
    quotes := (found.map Finding.literals).foldl (· + ·) .none
    indentation := indentation source
    lineStats := lineStats source
    docDelimiters := Tally.ofLabels (found.filterMap Finding.docDelimiter?)
    docFormats := Tally.ofLabels ((found.filterMap Finding.docFormat?).map DocFormat.label)
    testFrameworks := Tally.ofLabels (found.filterMap Finding.framework?) }

end HouseStyle.Survey
