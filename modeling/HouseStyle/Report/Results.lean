import HouseStyle.Json.Writer
import HouseStyle.Overview.Basic
import HouseStyle.Report.Piece

/-!
# Reports about results

A profile and an overview as text for people.  Sections without content are left out.  Maturity
and shares are coloured by how good they are.
-/

namespace HouseStyle.Report

open HouseStyle.Text

variable {α : Type} [Scalar α] [NumberText α]

/-- The name of the program. -/
def programName : String := "stylelearn"

/-- The version of the program. -/
def version : String := "0.1.0"

/-- The head of a report about a project. -/
def header (project : String) : Report :=
  blank
    ++ line [.plain "  ", .styled [.bold, .cyan] programName, .plain (" v" ++ version)]
    ++ blank
    ++ line [.plain "  ", .styled [.dimmed] "Project:  ", .plain project]

/-- A maturity. -/
def maturity (m : Maturity) : Piece :=
  let styles := match m with
    | .expert => [Style.bold, .green]
    | .intermediate => [.yellow]
    | .beginner => [.red]
  .styled styles m.label

/-- A share. -/
def share (x : α) : Piece :=
  let styles :=
    if Scalar.le 0.8 x then [Style.bold, .green]
    else if Scalar.le 0.6 x then [.green]
    else if Scalar.le 0.4 x then [.yellow]
    else [.red]
  .styled styles (NumberText.fixed 2 x)

/-- A maturity and a strictness. -/
def verdict (m : Maturity) (strictness : α) : Report :=
  line [.plain "  Maturity: ", maturity m, .plain "  Strictness: ", share strictness]

/-- The title of a section that counts its items. -/
def counted (title : String) (count : Nat) : Report :=
  line [.plain "  ", .styled [.bold] title, .plain (" (" ++ Nat.repr count ++ "):")]

/-- One convention. -/
def convention (c : Convention α) : Report :=
  line [.plain "    ", (Piece.styled [.dimmed] c.kind.label).wide 14, (Piece.plain c.name).wide 30,
      (Piece.styled [.blue] c.value.message).wide 20, share c.confidence,
      .styled [.dimmed] ("  ×" ++ Nat.repr c.frequency)]
    ++ if c.examples.isEmpty then []
      else line [.styled [.dimmed] ("        e.g. " ++ join ", " c.examples)]

/-- The conventions. -/
def conventions (l : List (Convention α)) : Report :=
  if l.isEmpty then line [.plain "  ", .styled [.dimmed] "No confident patterns"] ++ blank
  else counted "Patterns" l.length ++ l.flatMap convention ++ blank

/-- The settings of some tools, under a title. -/
def rules (title : String) (r : Rules α) : Report :=
  if r.isEmpty then []
  else
    line [.plain "  ", .styled [.bold] title, .plain ":"]
      ++ r.entries.flatMap (fun tool =>
        line [.plain "    ", .styled [.cyan] tool.1]
          ++ tool.2.entries.flatMap fun setting =>
            plainLine ("      " ++ padEnd 40 setting.1 ++ " " ++ setting.2.compactText))
      ++ blank

/-- A value of any shape; a text is shown without quotes. -/
def value : Json α → String
  | .text s => s
  | v => v.compactText

/-- What the team seems to prefer. -/
def preferences (m : SortedMap (Json α)) : Report :=
  if m.isEmpty then []
  else
    line [.plain "  ", .styled [.bold] "Team preferences", .plain ":"]
      ++ m.entries.flatMap (fun e => plainLine ("    " ++ padEnd 24 e.1 ++ " " ++ value e.2))
      ++ blank

/-- The head of the table of languages. -/
def columns : String :=
  padEnd 12 "language" ++ " " ++ padStart 6 "files" ++ " " ++ padStart 8 "lines" ++ " "
    ++ padStart 10 "complexity" ++ " " ++ padStart 9 "fn size" ++ " " ++ padStart 8 "naming"
    ++ " " ++ padStart 7 "style"

/-- The measures of one language. -/
def language (name : String) (m : LanguageMetrics α) : Report :=
  plainLine ("    " ++ padEnd 12 name ++ " " ++ padStart 6 (Nat.repr m.fileCount) ++ " "
    ++ padStart 8 (Nat.repr m.totalLines) ++ " "
    ++ padStart 10 (NumberText.fixed 1 m.avgComplexity) ++ " "
    ++ padStart 9 (NumberText.fixed 1 m.avgFunctionSize) ++ " "
    ++ padStart 8 (NumberText.fixed 2 m.namingConsistency) ++ " "
    ++ padStart 7 (NumberText.fixed 2 m.styleConsistency))

/-- The measures of all languages. -/
def languages (m : SortedMap (LanguageMetrics α)) : Report :=
  if m.isEmpty then []
  else
    counted "Languages" m.size ++ line [.plain "    ", .styled [.dimmed] columns]
      ++ m.entries.flatMap (fun e => language e.1 e.2) ++ blank

/-- One comparison between languages. -/
def comparison (c : Comparison α) : Report :=
  line [.plain "    ", (Piece.plain c.name).wide 30, share c.consistency, .plain "  ",
      .styled [.dimmed] (join ", " c.languages)]
    ++ plainLine ("        " ++ c.recommendation)

/-- The comparisons between languages. -/
def comparisons (l : List (Comparison α)) : Report :=
  if l.isEmpty then []
  else counted "Cross-language" l.length ++ l.flatMap comparison ++ blank

/-- The recommendations. -/
def recommendations (l : List String) : Report :=
  if l.isEmpty then []
  else
    line [.plain "  ", .styled [.bold] "Recommendations:"]
      ++ l.flatMap (fun r => plainLine ("    • " ++ r)) ++ blank

/-- The report about a profile. -/
def ofProfile (project : String) (p : Profile α) : Report :=
  header project
    ++ (if p.language = "" then []
      else line [.plain "  ", .styled [.dimmed] "Language: ", .plain p.language])
    ++ blank ++ verdict p.maturity p.strictness ++ blank ++ conventions p.conventions
    ++ rules "Custom rules" p.rules ++ preferences p.preferences

/-- The part of the report about an overview that is about the main language. -/
def primary (p : Profile α) : Report :=
  let title := if p.language = "" then "Primary language"
    else "Primary language (" ++ p.language ++ ")"
  line [.plain "  ", .styled [.bold] title] ++ [.plain "    "]
    ++ verdict p.maturity p.strictness ++ blank ++ conventions p.conventions

/-- The report about an overview. -/
def ofOverview (project : String) (o : Overview α) : Report :=
  header project ++ blank ++ verdict o.maturity o.strictness ++ blank
    ++ (o.primary.map primary).getD []
    ++ languages o.metrics ++ comparisons o.comparisons
    ++ o.rules.entries.flatMap (fun e => rules ("Rules for " ++ e.1) e.2)
    ++ recommendations o.recommendations

end HouseStyle.Report
