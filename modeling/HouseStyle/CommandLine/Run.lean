import HouseStyle.CommandLine.Command
import HouseStyle.Project.Learn
import HouseStyle.Report.Results
import HouseStyle.Settings.Discover
import HouseStyle.Snapshot.Store

/-!
# Running a command

A command reads a disk and may change it.  It ends with a report, or with a fault after which
the program has the exit code 2.  Whatever can go wrong without a change of the disk is found
out before the first change.
-/

namespace HouseStyle.CommandLine

/-- Why a command ends without a report. -/
inductive RunFault (α : Type) where
  /-- There is no such way to show a result. -/
  | format (name : String)
  /-- There are no settings. -/
  | settings (fault : SettingsLoadFault α)
  /-- Something about the project fails. -/
  | project (fault : ProjectFault α)
  /-- Nothing was saved in a directory. -/
  | nothingSaved (dir : Path)
  /-- There is something at the path of the settings file to write. -/
  | occupied (path : Path)
  /-- The directory for the settings file cannot be made. -/
  | noDirectory (fault : DiskFault)
  /-- The settings file cannot be written. -/
  | notWritten (fault : DiskFault)

/-- The fault in words. -/
def RunFault.message {α : Type} [NumberText α] : RunFault α → String
  | format name => "invalid format " ++ Text.quoted name ++ ", must be 'pretty' or 'json'"
  | settings fault => "invalid configuration: " ++ fault.message
  | project fault => fault.message
  | nothingSaved dir =>
    "no saved results in " ++ dir.text ++ "\nRun 'stylelearn learn --save' to create one"
  | occupied path =>
    "file already exists: " ++ path.text
      ++ "\nRemove it or use --output to specify a different path"
  | noDirectory fault => "failed to create directory: " ++ fault.message
  | notWritten fault => "failed to write config: " ++ fault.message

/-- How to show a result. -/
inductive Presentation where
  /-- As a report for people. -/
  | pretty
  /-- As the document that is saved. -/
  | json
deriving DecidableEq, Repr

namespace Presentation

/-- The way to show a result with a name. -/
def ofName? : String → Option Presentation
  | "pretty" => some pretty
  | "json" => some json
  | _ => none

variable {α : Type} [Scalar α] [NumberText α]

/-- A document in a report. -/
def document (j : Json α) : Report := Report.plainLine j.prettyText

/-- A profile of a project. -/
def profile (p : Presentation) (root : Path) (result : Profile α) : Report :=
  match p with
  | pretty => Report.ofProfile root.text result
  | json => document result.toJson

/-- An overview of a project. -/
def overview (p : Presentation) (root : Path) (result : Overview α) : Report :=
  match p with
  | pretty => Report.ofOverview root.text result
  | json => document result.toJson

/-- What was saved about a project.  A single document has room for one of both results. -/
def saved (p : Presentation) (root : Path) (learned : Option (Profile α))
    (compared : Option (Overview α)) : Report :=
  match p, compared with
  | json, some o => p.overview root o
  | json, none => (learned.map (p.profile root)).getD []
  | pretty, _ =>
    (learned.map (p.profile root)).getD [] ++ (compared.map (p.overview root)).getD []

end Presentation

variable {α : Type} [Scalar α] [NumberText α]

/-- The way to show a result that an order names. -/
def presentationOf (name : String) : Except (RunFault α) Presentation :=
  match Presentation.ofName? name with
  | some p => .ok p
  | none => .error (.format name)

namespace LearnOrder

/-- Some settings, with what the order says in their stead.  A single language is the main one
unless the settings name one. -/
def override (o : LearnOrder) (s : Settings α) : Settings α :=
  { s with
    excludedDirs := if o.excludedDirs.isEmpty then s.excludedDirs else o.excludedDirs
    languages := if o.languages.isEmpty then s.languages else o.languages
    primaryLanguage := match s.primaryLanguage, o.languages with
      | none, [language] => some language
      | found, _ => found }

/-- The settings of an order. -/
def settings (o : LearnOrder) (d : Disk) : Except (SettingsLoadFault α) (Settings α) := do
  let s ← Settings.loadFor d o.root o.settingsFile?
  let s := o.override s
  match s.check with
  | .ok _ => .ok s
  | .error fault => .error (.invalid fault)

/-- The profile that was saved before, if the order asks for it and there is one. -/
def previous? (o : LearnOrder) (s : Settings α) (d : Disk) :
    Except (ProjectFault α) (Option (Profile α)) :=
  if o.adapts then (s.store o.root).load? Profile.format d else .ok none

/-- A profile that starts from an earlier one, if there is one. -/
def adapted (s : Settings α) (previous : Option (Profile α)) (fresh : Profile α) : Profile α :=
  match previous with
  | some previous => Profile.adapt s.adaptationRate previous fresh
  | none => fresh

/-- The profile that is ordered. -/
def profile (o : LearnOrder) (s : Settings α) (now : α) (d : Disk) :
    Except (ProjectFault α) (Profile α) := do
  let tree ← d.project o.root
  let fresh ← tree.learn s now
  let previous ← o.previous? s d
  pure (adapted s previous fresh)

/-- The overview that is ordered. -/
def overview (o : LearnOrder) (s : Settings α) (now : α) (d : Disk) :
    Except (ProjectFault α) (Overview α) := do
  let tree ← d.project o.root
  let fresh ← tree.overview s now
  let previous ← o.previous? s d
  pure { fresh with primary := fresh.primary.map (adapted s previous) }

/-- Save a profile. -/
def saveProfile (o : LearnOrder) (s : Settings α) (p : Profile α) (d : Disk) :
    Except (ProjectFault α) Path × Disk :=
  (s.store o.root).saveFor o.root Profile.format p d

/-- Save an overview, and the profile in it before. -/
def saveOverview (o : LearnOrder) (s : Settings α) (v : Overview α) (d : Disk) :
    Except (ProjectFault α) Path × Disk :=
  let whole (d : Disk) := (s.store o.root).saveFor o.root Overview.format v d
  match v.primary with
  | none => whole d
  | some p =>
    match o.saveProfile s p d with
    | (.ok _, d) => whole d
    | (.error fault, d) => (.error fault, d)

/-- Make a result, save it if that is ordered, and show it. -/
def finish {β : Type} (o : LearnOrder) (d : Disk) (result : Except (RunFault α) β)
    (save : β → Disk → Except (ProjectFault α) Path × Disk) (present : β → Report) :
    Except (RunFault α) Report × Disk :=
  match result with
  | .error fault => (.error fault, d)
  | .ok value =>
    if o.saves then
      match save value d with
      | (.ok _, d) => (.ok (present value), d)
      | (.error fault, d) => (.error (.project fault), d)
    else (.ok (present value), d)

/-- What an order needs before the project is looked at. -/
def prepare (o : LearnOrder) (d : Disk) : Except (RunFault α) (Presentation × Settings α) := do
  let p ← presentationOf o.format
  let s ← (o.settings d).mapError .settings
  pure (p, s)

/-- Learn the conventions of the main language. -/
def learn (o : LearnOrder) (now : α) (d : Disk) : Except (RunFault α) Report × Disk :=
  match o.prepare d with
  | .error fault => (.error fault, d)
  | .ok (p, s) =>
    o.finish d ((o.profile s now d).mapError .project) (o.saveProfile s) (p.profile o.root)

/-- Learn from all languages and compare them. -/
def integrate (o : LearnOrder) (now : α) (d : Disk) : Except (RunFault α) Report × Disk :=
  match o.prepare d with
  | .error fault => (.error fault, d)
  | .ok (p, s) =>
    o.finish d ((o.overview s now d).mapError .project) (o.saveOverview s) (p.overview o.root)

end LearnOrder

/-- Show what was saved. -/
def ShowOrder.run (o : ShowOrder) (d : Disk) : Except (RunFault α) Report := do
  let p ← presentationOf o.format
  let s : Settings α ← (Settings.loadFor d o.root o.settingsFile?).mapError .settings
  let store := s.store o.root
  let learned ← (store.load? Profile.format d).mapError .project
  let compared ← (store.load? Overview.format d).mapError .project
  if learned.isNone && compared.isNone then .error (.nothingSaved store.dir)
  else pure (p.saved o.root learned compared)

/-- The text of a settings file to start from. -/
def settingsText : String :=
  "# stylelearn configuration\n" ++ (Settings.standard : Settings α).yamlText

/-- What to do with a settings file to start from. -/
def nextSteps (path : Path) : Report :=
  Report.plainLine ("Created " ++ path.text) ++ Report.blank ++ Report.plainLine "Next steps:"
    ++ Report.plainLine ("  1. Edit " ++ path.text ++ " to tune thresholds and exclusions")
    ++ Report.plainLine "  2. Run: stylelearn learn . --save"

/-- Write a settings file to start from, and make the directory that it lies in. -/
def create (path : Path) (d : Disk) : Except (RunFault α) Report × Disk :=
  let above := path.parentParts
  if d.holds path then (.error (.occupied path), d)
  else
    match if above = [.here] then (.ok (), d) else Disk.makeDirectoriesUp above.reverse d with
    | (.error fault, d) => (.error (.noDirectory fault), d)
    | (.ok _, d) =>
      match d.write path (Text.encode (settingsText (α := α))) with
      | (.error fault, d) => (.error (.notWritten fault), d)
      | (.ok _, d) => (.ok (nextSteps path), d)

/-- Run a command at some time. -/
def Command.run (now : α) (c : Command) (d : Disk) : Except (RunFault α) Report × Disk :=
  match c with
  | .learn o => o.learn now d
  | .integrate o => o.integrate now d
  | .display o => (o.run d, d)
  | .create path => CommandLine.create path d

/-- How a run of the program ends. -/
structure Outcome where
  /-- The exit code. -/
  code : Nat
  /-- What is written to the standard output. -/
  output : String
  /-- What is written to the standard error output. -/
  errors : String
deriving DecidableEq, Repr

/-- The exit code of a failure. -/
def failureCode : Nat := 2

/-- How the program ends after a command. -/
def Outcome.ofResult (coloured : Bool) : Except (RunFault α) Report → Outcome
  | .ok report => ⟨0, report.render coloured, ""⟩
  | .error fault => ⟨failureCode, "", "Error: " ++ fault.message ++ "\n"⟩

/-- The directory in which the results of a command are kept. -/
def Command.stateDir? (c : Command) (d : Disk) : Option Path :=
  let found (r : Except (SettingsLoadFault Float) (Settings Float)) (root : Path) : Option Path :=
    r.toOption.map fun s => s.stateDirFor root
  match c with
  | .learn o | .integrate o => found (o.settings d) o.root
  | .display o => found (Settings.loadFor d o.root o.settingsFile?) o.root
  | .create _ => none

/-- The project that a command looks at. -/
def Command.root? : Command → Option Path
  | .learn o | .integrate o => some o.root
  | .display o => some o.root
  | .create _ => none

/-- The file that a command names. -/
def Command.file? : Command → Option Path
  | .learn o | .integrate o => o.settingsFile?
  | .display o => o.settingsFile?
  | .create path => some path

namespace Usage

/-- The exit code where the program does nothing. -/
def code : Usage → Nat
  | help | version => 0
  | _ => failureCode

/-- How the program is used. -/
def hint : String :=
  "Usage: stylelearn [OPTIONS] <COMMAND>\n\nCommands:\n"
    ++ "  learn      Learn the conventions of the main language\n"
    ++ "  integrate  Learn from every language and compare them\n"
    ++ "  show       Show the results that were saved\n"
    ++ "  init       Write a settings file to start from\n"

/-- What the program says where it does nothing. -/
def message : Usage → String
  | help | nothing => hint
  | version => Report.programName ++ " " ++ Report.version ++ "\n"
  | noCommand => "error: a command is missing\n\n" ++ hint
  | unknownCommand => "error: there is no such command\n\n" ++ hint
  | unknownArgument => "error: an argument is not expected\n\n" ++ hint
  | noValue => "error: an option lacks its value\n\n" ++ hint
  | unwantedValue => "error: an option takes no value\n\n" ++ hint
  | repeated => "error: an option is given more than once\n\n" ++ hint

end Usage

end HouseStyle.CommandLine
