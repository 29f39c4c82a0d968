import HouseStyle.Overview.Advice

/-!
# The overview of a project

An overview joins the profile of the main language with the measures of all languages: one
maturity and one strictness for the project, the comparisons between its languages, the rules
for each language and the recommendations.
-/

namespace HouseStyle

/-- What is learned about a project in all its languages. -/
structure Overview (α : Type) where
  /-- The profile of the main language. -/
  primary : Option (Profile α)
  /-- The measures by language. -/
  metrics : SortedMap (LanguageMetrics α)
  /-- The comparisons between languages. -/
  comparisons : List (Comparison α)
  /-- The recommendations. -/
  recommendations : List String
  /-- How mature the project is. -/
  maturity : Maturity
  /-- How strictly the rules should be enforced. -/
  strictness : α
  /-- The settings of the tools by language. -/
  rules : SortedMap (Rules α)
  /-- When the overview was made, in seconds since 1970. -/
  generatedAt : α

namespace Overview

variable {α : Type} [Scalar α]

/-- The maturity of a project: the mean of the score of the main language and the mean score of
all languages. -/
def maturityOf (primary : Option (Profile α)) (metrics : SortedMap (LanguageMetrics α)) :
    Maturity :=
  let parts : List α := (primary.map fun p => p.maturity.score).toList
    ++ if metrics.isEmpty then [] else [Scalar.mean (metrics.values.map LanguageMetrics.score)]
  if parts.isEmpty then .beginner else Maturity.ofRatio (Scalar.mean parts)

/-- The adjustment of the strictness for a mean consistency of names. -/
def namingAdjustment (strictness naming : α) : α :=
  if Scalar.le 0.8 naming then strictness + 0.05
  else if Scalar.lt naming 0.5 then strictness - 0.1
  else strictness

/-- The strictness for a project. -/
def strictnessOf (maturity : Maturity) (metrics : SortedMap (LanguageMetrics α)) : α :=
  let base := maturity.baseStrictness
  Strictness.clamp Strictness.leastUnified
    (if metrics.isEmpty then base
      else namingAdjustment base (Scalar.mean (metrics.values.map (·.namingConsistency))))

/-- The rules for a language: those of the main profile if it is about this language, those for
its confident conventions, and those for its averages. -/
def rulesFor (primary : Option (Profile α)) (language : String) (m : LanguageMetrics α) :
    Rules α :=
  let confident := m.conventions.filter fun c => Scalar.lt 0.7 c.confidence
  let own := match primary with
    | some p => if p.language = language then Rules.merge .empty p.rules else .empty
    | none => .empty
  (own.merge (Rules.derive language confident m.lineStats)).merge (Rules.limits language m)

/-- Join the profile of the main language with the measures of all languages. -/
def integrate [NumberText α] (now : α) (primary : Option (Profile α))
    (metrics : SortedMap (LanguageMetrics α)) : Overview α :=
  let withData := metrics.filter fun _ m => m.hasData
  let comparisons := Comparison.ofIndex (Comparison.index primary withData)
    ++ Comparison.derived withData
  let maturity := maturityOf primary withData
  { primary
    metrics
    comparisons
    recommendations := Advice.all primary withData comparisons
    maturity
    strictness := strictnessOf maturity withData
    rules := withData.map (rulesFor primary)
    generatedAt := now }

/-- The overview with the profile of its main language adapted to an earlier one. -/
def adaptPrimary (rate : α) (previous : Profile α) (o : Overview α) : Overview α :=
  { o with primary := o.primary.map (Profile.adapt rate previous) }

end Overview

end HouseStyle
