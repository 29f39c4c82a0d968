import HouseStyle.Overview.Basic
import HouseStyle.Profile.Saved

/-!
# Overviews in documents

An overview is written as a record; the profile of the main language may be missing.
-/

namespace HouseStyle

namespace Comparison

variable {α : Type}

/-- The comparison in a document. -/
def toJson (c : Comparison α) : Json α :=
  .record [("pattern_name", .text c.name), ("languages", .list (c.languages.map .text)),
    ("values", c.values.toJson ConventionValue.toJson),
    ("consistency_score", .real c.consistency), ("recommendation", .text c.recommendation)]

/-- The fields of a comparison. -/
def shape : List (String × Presence) :=
  [("pattern_name", .required), ("languages", .required), ("values", .required),
    ("consistency_score", .required), ("recommendation", .required)]

/-- The comparison that a document spells. -/
def ofDocument? [Scalar α] [NumberText α] (d : Document) : Option (Comparison α) := do
  match ← d.fields? shape with
  | [some name, some languages, some values, some consistency, some recommendation] =>
    let name ← name.text?
    let languages ← languages.list? Document.text?
    let values ← values.table? ConventionValue.ofDocument?
    let consistency ← consistency.real?
    let recommendation ← recommendation.text?
    pure ⟨name, languages, values, consistency, recommendation⟩
  | _ => none

end Comparison

namespace Overview

variable {α : Type}

/-- The overview in a document. -/
def toJson (o : Overview α) : Json α :=
  .record [("primary_result", .optional (o.primary.map Profile.toJson)),
    ("language_metrics", o.metrics.toJson LanguageMetrics.toJson),
    ("cross_language_patterns", .list (o.comparisons.map Comparison.toJson)),
    ("recommendations", .list (o.recommendations.map .text)),
    ("overall_maturity", .text o.maturity.label), ("overall_strictness", .real o.strictness),
    ("language_rules", o.rules.toJson Rules.toJson), ("generated_at", .real o.generatedAt)]

/-- The fields of an overview. -/
def shape : List (String × Presence) :=
  [("primary_result", .optional), ("language_metrics", .required),
    ("cross_language_patterns", .required), ("recommendations", .required),
    ("overall_maturity", .required), ("overall_strictness", .required),
    ("language_rules", .required), ("generated_at", .required)]

/-- The overview that a document spells; `room` levels may be nested in it. -/
def ofDocument? [Scalar α] [NumberText α] (room : Nat) (d : Document) : Option (Overview α) := do
  match ← d.fields? shape with
  | [primary, some metrics, some comparisons, some recommendations, some maturity,
      some strictness, some rules, some generatedAt] =>
    let primary ← Document.orElse? primary none
      (Document.optional? (Profile.ofDocument? (room - 1)))
    let metrics ← metrics.table? LanguageMetrics.ofDocument?
    let comparisons ← comparisons.list? Comparison.ofDocument?
    let recommendations ← recommendations.list? Document.text?
    let maturity ← maturity.word?.bind Maturity.ofLabel?
    let strictness ← strictness.real?
    let rules ← rules.table? (Rules.ofDocument? (room - 2))
    let generatedAt ← generatedAt.real?
    pure ⟨primary, metrics, comparisons, recommendations, maturity, strictness, rules,
      generatedAt⟩
  | _ => none

end Overview

end HouseStyle
