import HouseStyle.Count
import HouseStyle.Path
import HouseStyle.Survey.Names
import HouseStyle.Tally

/-!
# What is found in a source file

The functions, types and imports of a file with what is counted in them, and the measurements
of its text.  Everything that is learned about a language is computed from these facts.
-/

namespace HouseStyle

/-- The decisions counted in a function. -/
structure ControlFlow where
  /-- The number of branches. -/
  branches : Nat
  /-- The number of loops. -/
  loops : Nat
  /-- The number of cases. -/
  cases : Nat
  /-- The number of handlers. -/
  handlers : Nat
  /-- The number of conditional expressions. -/
  conditionals : Nat
  /-- The number of further operands of conjunctions and disjunctions. -/
  junctions : Nat
deriving DecidableEq, Repr

namespace ControlFlow

/-- No decisions. -/
def none : ControlFlow := ⟨0, 0, 0, 0, 0, 0⟩

instance : Inhabited ControlFlow := ⟨none⟩

/-- The decisions of both. -/
def add (a b : ControlFlow) : ControlFlow :=
  ⟨a.branches + b.branches, a.loops + b.loops, a.cases + b.cases, a.handlers + b.handlers,
    a.conditionals + b.conditionals, a.junctions + b.junctions⟩

instance : Add ControlFlow := ⟨add⟩

/-- One branch. -/
def branch : ControlFlow := { none with branches := 1 }

/-- One loop. -/
def loop : ControlFlow := { none with loops := 1 }

/-- One case. -/
def case : ControlFlow := { none with cases := 1 }

/-- One handler. -/
def handler : ControlFlow := { none with handlers := 1 }

/-- One conditional expression. -/
def conditional : ControlFlow := { none with conditionals := 1 }

/-- One further operand. -/
def junction : ControlFlow := { none with junctions := 1 }

/-- The decisions of a list. -/
def sum (l : List ControlFlow) : ControlFlow := l.foldl (· + ·) none

/-- The number of decisions. -/
def decisions (c : ControlFlow) : Nat :=
  c.branches + c.loops + c.cases + c.handlers + c.conditionals + c.junctions

/-- The number of independent ways through a function, which is kept in 32 bits. -/
def complexity (c : ControlFlow) : Nat := (1 + c.decisions) % Count.wordSize 32

end ControlFlow

/-- A function or a method. -/
structure FunctionFacts where
  /-- The name. -/
  name : String
  /-- The line of the signature, counted from 1. -/
  startLine : Nat
  /-- The number of lines from the signature to the end. -/
  lineCount : Nat
  /-- The decisions in it. -/
  controlFlow : ControlFlow
  /-- Whether it has a doc comment. -/
  documented : Bool
  /-- Whether it has type annotations; `none` where they are not a matter of choice. -/
  annotated : Option Bool
deriving DecidableEq, Repr

/-- The number of independent ways through a function. -/
def FunctionFacts.complexity (f : FunctionFacts) : Nat := f.controlFlow.complexity

/-- A class or another type. -/
structure TypeFacts where
  /-- The name. -/
  name : String
  /-- The line of the declaration, counted from 1. -/
  startLine : Nat
  /-- Whether it has a doc comment. -/
  documented : Bool
deriving DecidableEq, Repr

/-- An import of another module. -/
structure ImportFacts where
  /-- The module as it is written. -/
  module : String
  /-- Whether all names are imported. -/
  wildcard : Bool
  /-- Whether the module is named relative to the importing file. -/
  relative : Bool
  /-- The line, counted from 1. -/
  line : Nat
deriving DecidableEq, Repr

/-- The numbers of text literals by their quotes. -/
structure QuoteCount where
  /-- Literals in single quotes. -/
  single : Nat
  /-- Literals in double quotes. -/
  double : Nat
deriving DecidableEq, Repr

namespace QuoteCount

/-- No literals. -/
def none : QuoteCount := ⟨0, 0⟩

instance : Inhabited QuoteCount := ⟨none⟩

/-- The literals of both. -/
def add (a b : QuoteCount) : QuoteCount := ⟨a.single + b.single, a.double + b.double⟩

instance : Add QuoteCount := ⟨add⟩

/-- The numbers as a tally. -/
def tally (q : QuoteCount) : Tally := Tally.ofCounts [("single", q.single), ("double", q.double)]

end QuoteCount

/-- What stands before the first character of the lines. -/
structure Indentation where
  /-- The lines that start with a space. -/
  spaceLines : Nat
  /-- The lines that start with a tab. -/
  tabLines : Nat
  /-- By how many columns a line stands deeper than the one before it. -/
  steps : Tally
deriving DecidableEq

namespace Indentation

/-- No lines. -/
def none : Indentation := ⟨0, 0, .empty⟩

instance : Inhabited Indentation := ⟨none⟩

/-- The lines of both. -/
def add (a b : Indentation) : Indentation :=
  ⟨a.spaceLines + b.spaceLines, a.tabLines + b.tabLines, a.steps.merge b.steps⟩

instance : Add Indentation := ⟨add⟩

/-- The numbers of lines as a tally. -/
def tally (i : Indentation) : Tally :=
  Tally.ofCounts [("spaces", i.spaceLines), ("tabs", i.tabLines)]

end Indentation

/-- The lengths of the lines that are not blank. -/
structure LineStats where
  /-- The number of lines. -/
  lines : Nat
  /-- The sum of their lengths. -/
  totalLength : Nat
  /-- The greatest length. -/
  maxLength : Nat
deriving DecidableEq, Repr

namespace LineStats

/-- No lines. -/
def none : LineStats := ⟨0, 0, 0⟩

instance : Inhabited LineStats := ⟨none⟩

/-- The lines of both. -/
def add (a b : LineStats) : LineStats :=
  ⟨a.lines + b.lines, a.totalLength + b.totalLength, max a.maxLength b.maxLength⟩

instance : Add LineStats := ⟨add⟩

/-- A single line of a length. -/
def ofLength (n : Nat) : LineStats := ⟨1, n, n⟩

/-- The lines of a list. -/
def sum (l : List LineStats) : LineStats := l.foldl (· + ·) none

end LineStats

/-- Everything that is found in a source file. -/
structure FileFacts where
  /-- The path below the project. -/
  path : String
  /-- The language. -/
  language : String
  /-- The number of lines. -/
  totalLines : Nat
  /-- Whether the file holds tests. -/
  isTestFile : Bool
  /-- The functions. -/
  functions : List FunctionFacts
  /-- The types. -/
  types : List TypeFacts
  /-- The names. -/
  names : Names
  /-- The imports. -/
  imports : List ImportFacts
  /-- The text literals. -/
  quotes : QuoteCount
  /-- The indentation. -/
  indentation : Indentation
  /-- The lengths of the lines. -/
  lineStats : LineStats
  /-- How the doc comments begin. -/
  docDelimiters : Tally
  /-- The formats of the doc comments. -/
  docFormats : Tally
  /-- The test frameworks that the file refers to. -/
  testFrameworks : Tally
deriving DecidableEq

namespace FileFacts

/-- The extension of the file. -/
def extension? (f : FileFacts) : Option String := Path.extension? ⟨f.path⟩

/-- The number of functions and types with a doc comment. -/
def documentedItems (f : FileFacts) : Nat :=
  f.functions.countP (·.documented) + f.types.countP (·.documented)

/-- The number of functions and types. -/
def documentableItems (f : FileFacts) : Nat := f.functions.length + f.types.length

end FileFacts

end HouseStyle
