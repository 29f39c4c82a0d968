import HouseStyle.Profile.Maturity
import HouseStyle.Profile.Rules
import HouseStyle.Profile.Strictness

/-!
# The profile of a language

A profile is what is learned about one language of a project: how mature the project is, how
strictly its rules should be enforced, which conventions were accepted, the settings that
follow from them, and what the team seems to prefer.  Strictness starts from the maturity and
moves with the mean confidence in the accepted conventions.
-/

namespace HouseStyle

/-- What is learned about a language. -/
structure Profile (α : Type) where
  /-- The language; empty if it is not known. -/
  language : String
  /-- How mature the project is. -/
  maturity : Maturity
  /-- How strictly the rules should be enforced. -/
  strictness : α
  /-- The accepted conventions. -/
  conventions : List (Convention α)
  /-- The settings of the tools. -/
  rules : Rules α
  /-- What the team seems to prefer. -/
  preferences : SortedMap (Json α)
  /-- When the profile was made, in seconds since 1970. -/
  generatedAt : α

namespace Profile

variable {α : Type} [Scalar α]

/-- The mean confidence in some conventions, one half without conventions. -/
def meanConfidence (conventions : List (Convention α)) : α :=
  if conventions.isEmpty then 0.5 else Scalar.mean (conventions.map (·.confidence))

/-- The conventions in which one can be confident enough. -/
def accepted (least : α) (conventions : List (Convention α)) : List (Convention α) :=
  conventions.filter fun c => Scalar.le least c.confidence

/-- The strictness for a maturity and the accepted conventions. -/
def recommended (maturity : Maturity) (conventions : List (Convention α)) : α :=
  Strictness.clamp Strictness.least
    (maturity.baseStrictness + (meanConfidence conventions - 0.5) * 0.3)

/-- The word for a mean complexity. -/
def complexityWord (mean : α) : String :=
  if Scalar.lt mean 3.0 then "simple" else if Scalar.lt mean 7.0 then "moderate" else "complex"

/-- A preference for the dominant label of a tally. -/
def preference? (key : String) (tally : Tally) : Option (String × Json α) :=
  tally.dominant?.map fun d => (key, .text d.1)

/-- What the team seems to prefer. -/
def preferencesOf (a : Analysis α) : SortedMap (Json α) :=
  SortedMap.ofList ((preference? "preferred_extension" a.extensions).toList
    ++ (preference? "test_framework" a.testFrameworks).toList
    ++ (preference? "doc_style" a.facts.docFormats).toList
    ++ if a.metrics.hasData then
        [("complexity_preference", .text (complexityWord a.metrics.avgComplexity))]
      else [])

/-- The profile that an analysis of a language in a project gives. -/
def learn (least : α) (now : α) (a : Analysis α) (layout : Layout) : Profile α :=
  let conventions := accepted least a.metrics.conventions
  let maturity := Maturity.ofRatio (MaturityAxes.measure a layout).ratio
  { language := a.language
    maturity
    strictness := recommended maturity conventions
    conventions
    rules := Rules.derive a.language conventions a.metrics.lineStats
    preferences := preferencesOf a
    generatedAt := now }

/-- A fresh profile whose strictness has only moved by a share of the way from that of an
earlier profile. -/
def adapt (rate : α) (previous fresh : Profile α) : Profile α :=
  { fresh with
    strictness :=
      Strictness.clamp Strictness.least (Strictness.blend rate previous.strictness fresh.strictness) }

end Profile

end HouseStyle
