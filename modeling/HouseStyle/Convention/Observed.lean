import HouseStyle.Convention.Basic
import HouseStyle.Number.Reading
import HouseStyle.Survey.LanguageFacts
import HouseStyle.Survey.NamingStyle

/-!
# The conventions that a language shows

Each kind of convention is read off the facts about a language: the styles of its names, the
layout of the project, the look of its source text and its doc comments.  All of them are
reported in this order, and only with enough confidence.
-/

namespace HouseStyle

namespace Names

/-- How often each naming style occurs among some names. -/
def styleTally (names : List String) : Tally :=
  Tally.ofLabels ((names.filterMap NamingStyle.classify?).map NamingStyle.label)

end Names

namespace Convention

variable {α : Type} [Scalar α]

/-- Leave out repetitions, keeping the first occurrence of each name. -/
def distinct (names : List String) : List String :=
  (names.foldl (fun seen name => if seen.contains name then seen else name :: seen) []).reverse

/-- The distinct names of a style, in the order in which they occur. -/
def namesOfStyle (label : String) (names : List String) : List String :=
  distinct (names.filter fun name => (NamingStyle.classify? name).map NamingStyle.label == some label)

/-- The convention about the names of a kind. -/
def ofNames? (accept : Acceptance α) (kind : NameKind) (names : List String) :
    Option (Convention α) :=
  let tally := Names.styleTally names
  let examples := match tally.dominant? with
    | some (label, _) => namesOfStyle label names
    | none => []
  ofTally? accept .naming kind.convention tally examples

/-- The conventions about names. -/
def naming (accept : Acceptance α) (facts : LanguageFacts) : List (Convention α) :=
  NameKind.all.filterMap fun kind => ofNames? accept kind (facts.names.get kind)

/-- The convention about customary directories, if there are any of them. -/
def ofCustom? (layout : Layout) (name : String) (dirs : List String) : Option (Convention α) :=
  let found := layout.present dirs
  if found.isEmpty then none
  else some (make .layout name (.flag true) 1.0 found.length found)

/-- The conventions about the layout of the project. -/
def layout (accept : Acceptance α) (facts : LanguageFacts) : List (Convention α) :=
  Layout.customary.filterMap (fun c => ofCustom? facts.layout c.1 c.2)
    ++ (ofTally? accept .layout "dominant_language" facts.layout.sourceFiles []).toList

/-- The convention about the width of a step, which the label of the step spells. -/
def indentSize? [NumberText α] (accept : Acceptance α) (steps : Tally) : Option (Convention α) := do
  let step ← ofTally? accept .style "indent_size" steps []
  let label ← step.value.text?
  let width ← Number.ofLabel? label
  pure { step with value := .number width }

/-- The convention about indentation, and the width of a step where it is done with spaces. -/
def indentation [NumberText α] (accept : Acceptance α) (i : Indentation) : List (Convention α) :=
  match ofTally? accept .style "indentation" i.tally [] with
  | none => []
  | some c =>
    if c.value.text? = some "spaces" then c :: (indentSize? accept i.steps).toList else [c]

/-- The conventions about the look of the source text. -/
def style [NumberText α] (accept : Acceptance α) (facts : LanguageFacts) : List (Convention α) :=
  (ofTally? accept .style "quote_style" facts.quotes.tally []).toList
    ++ indentation accept facts.indentation
    ++ (ofTally? accept .style "type_annotations" facts.annotations []).toList
    ++ (ofTally? accept .style "import_style" facts.importStyles []).toList

/-- The share of documented items above which documentation is a habit. -/
def highCoverage : α := 0.7

/-- The convention that nearly everything is documented. -/
def highCoverage? (facts : LanguageFacts) : Option (Convention α) := do
  let coverage ← facts.documentationCoverage?
  guard (Scalar.lt highCoverage coverage)
  pure (make .documentation "high_documentation_coverage" (.flag true) coverage
    facts.documentedItems [])

/-- The conventions about doc comments. -/
def documentation (accept : Acceptance α) (facts : LanguageFacts) : List (Convention α) :=
  (ofTally? accept .documentation "doc_comment_style" facts.docDelimiters []).toList
    ++ (ofTally? accept .documentation "docstring_format" facts.docFormats []).toList
    ++ (highCoverage? facts).toList

/-- The conventions of a kind that a language shows. -/
def observed [NumberText α] (kind : ConventionKind) (accept : Acceptance α)
    (facts : LanguageFacts) : List (Convention α) :=
  let found := match kind with
    | .naming => naming accept facts
    | .layout => layout accept facts
    | .style => style accept facts
    | .documentation => documentation accept facts
  found.filter fun c => Scalar.le accept.floor c.confidence

/-- All conventions that a language shows. -/
def allObserved [NumberText α] (accept : Acceptance α) (facts : LanguageFacts) :
    List (Convention α) :=
  ConventionKind.all.flatMap fun kind => observed kind accept facts

end Convention

end HouseStyle
