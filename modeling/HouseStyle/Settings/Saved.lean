import HouseStyle.Json.Shape
import HouseStyle.Settings.Basic
import HouseStyle.Yaml.Value
import HouseStyle.Yaml.Writer

/-!
# Settings in files

Settings are written in a configuration file, one on a line, and may also be given as a
document.  In both, a setting that is left out has its default, and one that is not known is
skipped.  The two formats differ in what they take for a number, a flag or a text, which is what
a `SettingsFormat` says; how settings are put together from what is given is the same.
-/

namespace HouseStyle

/-- How the values of settings are read from a value of a format. -/
structure SettingsFormat (α δ : Type) where
  /-- A number. -/
  real? : δ → Option α
  /-- Yes or no. -/
  flag? : δ → Option Bool
  /-- A text. -/
  text? : δ → Option String
  /-- Some texts. -/
  texts? : δ → Option (List String)
  /-- A text or nothing. -/
  optionalText? : δ → Option (Option String)
  /-- A count or nothing. -/
  optionalCount? : δ → Option (Option Nat)

namespace Settings

variable {α : Type} [Scalar α]

/-- The names of the settings, in their order. -/
def names : List String := [
  "min_pattern_confidence", "analyzer_confidence_floor", "confidence_steepness",
  "adaptation_rate", "excluded_dirs", "excluded_paths", "languages", "primary_language",
  "max_files", "parallel", "state_dir"]

/-- What is read from a given value, or the default. -/
def given? {β δ : Type} (value : Option δ) (fallback : β) (read : δ → Option β) : Option β :=
  match value with
  | some d => read d
  | none => some fallback

/-- The settings of the values that are given for them, in their order. -/
def ofGiven? {δ : Type} (format : SettingsFormat α δ) : List (Option δ) → Option (Settings α)
  | [leastConfidence, floor, steepness, adaptationRate, excludedDirs, excludedPaths, languages,
      primaryLanguage, maxFiles, parallel, stateDir] => do
    let leastConfidence ← given? leastConfidence standard.leastConfidence format.real?
    let floor ← given? floor standard.floor format.real?
    let steepness ← given? steepness standard.steepness format.real?
    let adaptationRate ← given? adaptationRate standard.adaptationRate format.real?
    let excludedDirs ← given? excludedDirs neverSources format.texts?
    let excludedPaths ← given? excludedPaths [] format.texts?
    let languages ← given? languages [] format.texts?
    let primaryLanguage ← given? primaryLanguage none format.optionalText?
    let maxFiles ← given? maxFiles none format.optionalCount?
    let parallel ← given? parallel true format.flag?
    let stateDir ← given? stateDir (standard : Settings α).stateDir format.text?
    pure { leastConfidence, floor, steepness, adaptationRate, excludedDirs, excludedPaths,
           languages, primaryLanguage, maxFiles, parallel, stateDir }
  | _ => none

variable [NumberText α]

/-- The values of settings in a document. -/
def documentFormat : SettingsFormat α Document :=
  { real? := Document.real?
    flag? := Document.flag?
    text? := Document.text?
    texts? := Document.list? Document.text?
    optionalText? := Document.optional? Document.text?
    optionalCount? := Document.optional? Document.count? }

/-- The settings that a document spells. -/
def ofDocument? (d : Document) : Option (Settings α) :=
  (d.fields? (names.map fun name => (name, .defaulted))).bind (ofGiven? documentFormat)

/-- The settings in a document. -/
def toJson (s : Settings α) : Json α :=
  .record [("min_pattern_confidence", .real s.leastConfidence),
    ("analyzer_confidence_floor", .real s.floor), ("confidence_steepness", .real s.steepness),
    ("adaptation_rate", .real s.adaptationRate),
    ("excluded_dirs", .list (s.excludedDirs.map .text)),
    ("excluded_paths", .list (s.excludedPaths.map .text)),
    ("languages", .list (s.languages.map .text)),
    ("primary_language", .optional (s.primaryLanguage.map .text)),
    ("max_files", .optional (s.maxFiles.map .count)), ("parallel", .flag s.parallel),
    ("state_dir", .text s.stateDir)]

/-- The texts of a list in a configuration file; a value that is left out is an empty list. -/
def yamlTexts? : Yaml → Option (List String)
  | .list items => items.mapM fun
    | .scalar _ s => some s
    | _ => none
  | .scalar true "" => some []
  | _ => none

/-- The values of settings in a configuration file. -/
def yamlFormat : SettingsFormat α Yaml :=
  { real? := fun
      | .scalar true s => Yaml.readsReal? s
      | _ => none
    flag? := fun
      | .scalar true s => Yaml.readsFlag? s
      | _ => none
    text? := fun
      | .scalar _ s => some s
      | _ => none
    texts? := yamlTexts?
    optionalText? := fun
      | .scalar plain s => if plain && Yaml.readsNull s then some none else some (some s)
      | _ => none
    optionalCount? := fun
      | .scalar true s => if Yaml.readsNull s then some none else (Yaml.readsCount? s).map some
      | _ => none }

/-- The name of an entry of a configuration file. -/
def yamlName? : Yaml → Option String
  | .scalar _ s => some s
  | _ => none

/-- The settings that a configuration file spells; an empty one spells the defaults. -/
def ofYaml? : Yaml → Option (Settings α)
  | .table entries => do
    let named ← entries.mapM fun e => (yamlName? e.1).map fun name => (name, e.2)
    let known := named.filter fun e => names.contains e.1
    guard (known.map Prod.fst).Nodup
    ofGiven? yamlFormat (names.map fun name => known.lookup name)
  | .list items => do
    guard (items.length ≤ names.length)
    ofGiven? yamlFormat (items.map some ++ List.replicate (names.length - items.length) none)
  | .scalar true "" => some standard
  | _ => none

/-- A list of texts in a configuration file. -/
def yamlList (texts : List String) : List Char :=
  if texts.isEmpty then " []".toList
  else texts.flatMap fun s => "\n- ".toList ++ Yaml.scalarText s

/-- The text of a value that may be missing. -/
def yamlOptional (value : Option (List Char)) : List Char := value.getD "null".toList

/-- The settings as a configuration file, one on a line. -/
def yamlText (s : Settings α) : String :=
  let scalar (value : List Char) : List Char := ' ' :: value
  let number (x : α) : List Char := scalar (NumberText.configuration x).toList
  let values : List (List Char) := [
    number s.leastConfidence, number s.floor, number s.steepness, number s.adaptationRate,
    yamlList s.excludedDirs, yamlList s.excludedPaths, yamlList s.languages,
    scalar (yamlOptional (s.primaryLanguage.map Yaml.scalarText)),
    scalar (yamlOptional (s.maxFiles.map fun n => (Nat.repr n).toList)),
    scalar (if s.parallel then "true".toList else "false".toList),
    scalar (Yaml.scalarText s.stateDir)]
  String.ofList ((names.zip values).flatMap fun e => e.1.toList ++ ':' :: e.2 ++ ['\n'])

end Settings

end HouseStyle
