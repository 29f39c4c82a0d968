import HouseStyle.Convention.Saved
import HouseStyle.Profile.Basic

/-!
# Profiles and measures in documents

Profiles, measures and rules are written as records whose fields stand in a fixed order.  In
older documents a profile does not name its language, and measures have no line lengths.  A
setting may have a value of any shape, with as many levels as the document has left.
-/

namespace HouseStyle

namespace LineStats

/-- The lengths of lines in a document. -/
def toJson {α : Type} (s : LineStats) : Json α :=
  .record [("lines", .count s.lines), ("total_length", .count s.totalLength),
    ("max_length", .count s.maxLength)]

/-- The lengths of lines that a document spells. -/
def ofDocument? (d : Document) : Option LineStats := do
  let shape := [("lines", Presence.required), ("total_length", .required),
    ("max_length", .required)]
  match ← d.fields? shape with
  | [some lines, some totalLength, some maxLength] =>
    let lines ← lines.count?
    let totalLength ← totalLength.count?
    let maxLength ← maxLength.count?
    pure ⟨lines, totalLength, maxLength⟩
  | _ => Option.none

end LineStats

namespace SortedMap

/-- A table in a document. -/
def toJson {α β : Type} (m : SortedMap β) (write : β → Json α) : Json α :=
  .record (m.entries.map fun e => (e.1, write e.2))

end SortedMap

namespace LanguageMetrics

variable {α : Type}

/-- The measures in a document. -/
def toJson (m : LanguageMetrics α) : Json α :=
  .record [("language", .text m.language), ("file_count", .count m.fileCount),
    ("total_lines", .count m.totalLines), ("avg_function_size", .real m.avgFunctionSize),
    ("avg_complexity", .real m.avgComplexity),
    ("naming_consistency", .real m.namingConsistency),
    ("style_consistency", .real m.styleConsistency), ("line_stats", m.lineStats.toJson),
    ("patterns", .list (m.conventions.map Convention.toJson))]

/-- The fields of measures. -/
def shape : List (String × Presence) :=
  [("language", .required), ("file_count", .required), ("total_lines", .required),
    ("avg_function_size", .required), ("avg_complexity", .required),
    ("naming_consistency", .required), ("style_consistency", .required),
    ("line_stats", .defaulted), ("patterns", .required)]

/-- The measures that a document spells. -/
def ofDocument? [Scalar α] [NumberText α] (d : Document) : Option (LanguageMetrics α) := do
  match ← d.fields? shape with
  | [some language, some fileCount, some totalLines, some avgFunctionSize, some avgComplexity,
      some namingConsistency, some styleConsistency, lineStats, some conventions] =>
    let language ← language.text?
    let fileCount ← fileCount.count?
    let totalLines ← totalLines.count?
    let avgFunctionSize ← avgFunctionSize.real?
    let avgComplexity ← avgComplexity.real?
    let namingConsistency ← namingConsistency.real?
    let styleConsistency ← styleConsistency.real?
    let lineStats ← Document.orElse? lineStats .none LineStats.ofDocument?
    let conventions ← conventions.list? Convention.ofDocument?
    pure ⟨language, fileCount, totalLines, avgFunctionSize, avgComplexity, namingConsistency,
      styleConsistency, lineStats, conventions⟩
  | _ => none

end LanguageMetrics

namespace Rules

variable {α : Type}

/-- Rules in a document. -/
def toJson (rules : Rules α) : Json α :=
  SortedMap.toJson rules fun settings => SortedMap.toJson settings id

/-- The rules that a document spells; `room` levels may be nested in it. -/
def ofDocument? [Scalar α] [NumberText α] (room : Nat) (d : Document) : Option (Rules α) :=
  d.table? (Document.table? (Document.json? (room - 2)))

end Rules

namespace Profile

variable {α : Type}

/-- The profile in a document. -/
def toJson (p : Profile α) : Json α :=
  .record [("language", .text p.language), ("project_maturity", .text p.maturity.label),
    ("recommended_strictness", .real p.strictness),
    ("patterns", .list (p.conventions.map Convention.toJson)),
    ("custom_rules", p.rules.toJson), ("team_preferences", p.preferences.toJson id),
    ("generated_at", .real p.generatedAt)]

/-- The fields of a profile. -/
def shape : List (String × Presence) :=
  [("language", .defaulted), ("project_maturity", .required),
    ("recommended_strictness", .required), ("patterns", .required),
    ("custom_rules", .required), ("team_preferences", .required), ("generated_at", .required)]

/-- The profile that a document spells; `room` levels may be nested in it. -/
def ofDocument? [Scalar α] [NumberText α] (room : Nat) (d : Document) : Option (Profile α) := do
  match ← d.fields? shape with
  | [language, some maturity, some strictness, some conventions, some rules, some preferences,
      some generatedAt] =>
    let language ← Document.orElse? language "" Document.text?
    let maturity ← maturity.word?.bind Maturity.ofLabel?
    let strictness ← strictness.real?
    let conventions ← conventions.list? Convention.ofDocument?
    let rules ← Rules.ofDocument? (room - 1) rules
    let preferences ← preferences.table? (Document.json? (room - 2))
    let generatedAt ← generatedAt.real?
    pure ⟨language, maturity, strictness, conventions, rules, preferences, generatedAt⟩
  | _ => none

end Profile

end HouseStyle
