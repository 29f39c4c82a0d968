import HouseStyle.Number.Scalar
import HouseStyle.Survey.Facts
import HouseStyle.Survey.Layout

/-!
# What is found in all files of a language

The facts about the files of one language are added up.  Sums do not depend on the order of the
files; only the lists of names keep it.
-/

namespace HouseStyle

/-- The facts about a language. -/
structure LanguageFacts where
  /-- The language. -/
  language : String
  /-- The names. -/
  names : Names
  /-- The text literals. -/
  quotes : QuoteCount
  /-- The indentation. -/
  indentation : Indentation
  /-- The functions with and without type annotations. -/
  annotations : Tally
  /-- The absolute and relative imports. -/
  importStyles : Tally
  /-- How the doc comments begin. -/
  docDelimiters : Tally
  /-- The formats of the doc comments. -/
  docFormats : Tally
  /-- The number of functions and types with a doc comment. -/
  documentedItems : Nat
  /-- The number of functions and types. -/
  documentableItems : Nat
  /-- The layout of the project. -/
  layout : Layout
deriving DecidableEq

namespace LanguageFacts

/-- A language without files in a project. -/
def empty (language : String) (layout : Layout) : LanguageFacts :=
  { language, names := .empty, quotes := .none, indentation := .none, annotations := .empty
    importStyles := .empty, docDelimiters := .empty, docFormats := .empty
    documentedItems := 0, documentableItems := 0, layout }

/-- The label of a function by its annotations. -/
def annotationLabel? (f : FunctionFacts) : Option String :=
  f.annotated.map fun annotated => if annotated then "annotated" else "unannotated"

/-- The label of an import by the way the module is named. -/
def importLabel (i : ImportFacts) : String := if i.relative then "relative" else "absolute"

/-- Add the facts about a file. -/
def addFile (facts : LanguageFacts) (f : FileFacts) : LanguageFacts :=
  { facts with
    names := facts.names.append f.names
    quotes := facts.quotes + f.quotes
    indentation := facts.indentation + f.indentation
    annotations := facts.annotations.merge (.ofLabels (f.functions.filterMap annotationLabel?))
    importStyles := facts.importStyles.merge (.ofLabels (f.imports.map importLabel))
    docDelimiters := facts.docDelimiters.merge f.docDelimiters
    docFormats := facts.docFormats.merge f.docFormats
    documentedItems := facts.documentedItems + f.documentedItems
    documentableItems := facts.documentableItems + f.documentableItems }

/-- The facts about the files of a language. -/
def ofFiles (language : String) (files : List FileFacts) (layout : Layout) : LanguageFacts :=
  files.foldl addFile (empty language layout)

/-- The share of functions and types with a doc comment, if there are any. -/
def documentationCoverage? {α : Type} [Scalar α] (facts : LanguageFacts) : Option α :=
  if facts.documentableItems = 0 then none
  else some (Scalar.share facts.documentedItems facts.documentableItems)

end LanguageFacts

end HouseStyle
