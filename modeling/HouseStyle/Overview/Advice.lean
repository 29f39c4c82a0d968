import HouseStyle.Overview.Comparison

/-!
# Recommendations

Sentences that sum up a project: how far the conventions of its main language can be relied on,
how good each language is, which conventions the languages share, and where a standard is
missing.
-/

namespace HouseStyle

namespace LanguageMetrics

variable {α : Type} [Scalar α]

/-- How good a mean complexity is: 1 while functions are simple, and less by a tenth for each
further way through a function. -/
def complexityGoodness (mean : α) : α :=
  if Scalar.le mean Comparison.goodComplexity then 1.0
  else Scalar.larger (1.0 - (mean - Comparison.goodComplexity) / 10.0) 0.0

/-- How good a mean function length is: 1 while functions are short, and 0 forty lines on. -/
def sizeGoodness (mean : α) : α :=
  if Scalar.le mean Comparison.goodSize then 1.0
  else Scalar.larger (1.0 - (mean - Comparison.goodSize) / 40.0) 0.0

/-- The score of a language, in the unit interval. -/
def score (m : LanguageMetrics α) : α :=
  0.3 * m.namingConsistency + 0.2 * m.styleConsistency + 0.3 * complexityGoodness m.avgComplexity
    + 0.2 * sizeGoodness m.avgFunctionSize

end LanguageMetrics

namespace Advice

variable {α : Type} [Scalar α] [NumberText α]

/-- A share in percent. -/
def percent (x : α) : String := NumberText.fixed 0 (x * 100.0) ++ "%"

/-- How far the conventions of the main language can be relied on. -/
def onProfile (p : Profile α) : String :=
  let language := if p.language = "" then "the primary language" else p.language
  let confidence := Profile.meanConfidence p.conventions
  if p.conventions.isEmpty then
    "No " ++ language
      ++ " conventions were learned with confidence; add more code before enforcing rules"
  else if Scalar.le 0.8 confidence then
    "High confidence in the learned " ++ language ++ " conventions (" ++ percent confidence
      ++ "); enforce them"
  else if Scalar.le 0.6 confidence then
    "Moderate confidence in the learned " ++ language ++ " conventions (" ++ percent confidence
      ++ "); enforce them as warnings"
  else
    "Low confidence in the learned " ++ language ++ " conventions (" ++ percent confidence
      ++ "); review them before enforcing"

/-- How good a language is. -/
def onLanguage (language : String) (m : LanguageMetrics α) : String :=
  let score := m.score
  let rating := "(" ++ NumberText.fixed 2 score ++ ")"
  if Scalar.le 0.8 score then
    language ++ ": high quality " ++ rating ++ "; keep current standards"
  else if Scalar.le 0.6 score then
    language ++ ": good quality " ++ rating ++ " with room to improve"
  else
    language ++ ": needs attention " ++ rating ++ "; complexity "
      ++ NumberText.fixed 1 m.avgComplexity ++ ", function size "
      ++ NumberText.fixed 1 m.avgFunctionSize

/-- The names of the comparisons whose consistency satisfies `p`. -/
def namesWhere (p : α → Bool) (cs : List (Comparison α)) : List String :=
  (cs.filter fun c => p c.consistency).map (·.name)

/-- A sentence about some names, if there are any. -/
def aboutNames? (names : List String) (sentence : String → String) : Option String :=
  if names.isEmpty then none else some (sentence (Text.join ", " names))

/-- Which conventions the languages share, nearly share, and do not share. -/
def onComparisons (cs : List (Comparison α)) : List String :=
  let strong := namesWhere (fun x => Scalar.le 0.8 x) cs
  let moderate := namesWhere (fun x => Scalar.le 0.5 x && Scalar.lt x 0.8) cs
  let weak := namesWhere (fun x => Scalar.lt x 0.5) cs
  (aboutNames? strong fun names =>
      Nat.repr strong.length ++ " conventions are shared across languages: " ++ names).toList
    ++ (aboutNames? moderate fun names => "Align partially shared conventions: " ++ names).toList
    ++ (aboutNames? weak fun names => "Establish cross-language standards for: " ++ names).toList

/-- A warning when the complexities of the languages differ widely. -/
def onComplexity? (cs : List (Comparison α)) : Option String :=
  match cs.find? fun c => c.name == Comparison.complexityName with
  | some c =>
    if Scalar.lt c.consistency 0.6 then
      some ("Complexity differs widely between " ++ Text.join ", " c.languages
        ++ "; agree on one complexity limit")
    else none
  | none => none

/-- Where a standard is missing, given the mean consistencies. -/
def onStandards (naming style : α) : List String :=
  (if Scalar.lt naming 0.8 then
    ["Define a naming standard: identifiers follow their dominant style " ++ percent naming
      ++ " of the time"] else [])
    ++ if Scalar.lt style 0.8 then
      ["Define a formatting standard: quotes and indentation agree " ++ percent style
        ++ " of the time"] else []

/-- All recommendations for a project. -/
def all (primary : Option (Profile α)) (metrics : SortedMap (LanguageMetrics α))
    (cs : List (Comparison α)) : List String :=
  let withData := metrics.filter fun _ m => m.hasData
  (primary.map onProfile).toList
    ++ withData.entries.map (fun e => onLanguage e.1 e.2)
    ++ onComparisons cs
    ++ (onComplexity? cs).toList
    ++ if withData.isEmpty then []
      else onStandards (Scalar.mean (withData.values.map (·.namingConsistency)))
        (Scalar.mean (withData.values.map (·.styleConsistency)))

end Advice

end HouseStyle
