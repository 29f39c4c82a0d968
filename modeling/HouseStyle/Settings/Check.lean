import HouseStyle.Language
import HouseStyle.Project.Glob
import HouseStyle.Settings.Basic

/-!
# Which settings make sense

Thresholds lie in the unit interval, the steepness is positive, languages are known, and every
pattern of paths to leave out is one.  The first setting that makes no sense is reported, in the
order of the settings; patterns come last.
-/

namespace HouseStyle

/-- A setting that makes no sense. -/
inductive SettingsFault (α : Type) where
  /-- A share outside the unit interval. -/
  | share (name : String) (value : α)
  /-- A steepness that is not positive. -/
  | steepness (value : α)
  /-- No files at all. -/
  | noFiles
  /-- No directory for the results. -/
  | noStateDir
  /-- A language that is not known. -/
  | language (name : String)
  /-- A text that is no pattern of paths. -/
  | pattern (text : String) (fault : GlobFault)

namespace SettingsFault

/-- The fault in words. -/
def message {α : Type} [NumberText α] : SettingsFault α → String
  | share name value => name ++ " must be within [0, 1], got " ++ NumberText.message value
  | steepness value =>
    "confidence_steepness must be a positive number, got " ++ NumberText.message value
  | noFiles => "max_files must be at least 1"
  | noStateDir => "state_dir must not be empty"
  | language name =>
    "unknown language " ++ Text.quoted name ++ ", expected one of: " ++ Text.join ", " Language.ids
  | pattern text fault => fault.message text

end SettingsFault

namespace Settings

variable {α : Type} [Scalar α]

/-- The patterns of paths to leave out, or the first fault in them. -/
def globs (s : Settings α) : Except (SettingsFault α) (List (List GlobPart)) :=
  s.excludedPaths.mapM fun text =>
    match Glob.parse text with
    | .ok parts => .ok parts
    | .error fault => .error (.pattern text fault)

/-- Whether a share lies in the unit interval. -/
def checkShare (name : String) (value : α) : Except (SettingsFault α) Unit :=
  if Scalar.within 0.0 1.0 value then .ok () else .error (.share name value)

/-- Whether a language is known. -/
def checkLanguage (name : String) : Except (SettingsFault α) Unit :=
  if Language.ids.contains name then .ok () else .error (.language name)

/-- Whether the settings make sense. -/
def check (s : Settings α) : Except (SettingsFault α) Unit := do
  checkShare "min_pattern_confidence" s.leastConfidence
  checkShare "analyzer_confidence_floor" s.floor
  checkShare "adaptation_rate" s.adaptationRate
  if !(Scalar.lt 0.0 s.steepness && Scalar.isFinite s.steepness) then
    .error (.steepness s.steepness)
  if s.maxFiles = some 0 then .error .noFiles
  if Text.allBlank s.stateDir.toList then .error .noStateDir
  (s.languages ++ s.primaryLanguage.toList).forM checkLanguage
  let _ ← s.globs
  pure ()

/-- The languages to look at. -/
def activeLanguages (s : Settings α) : List String :=
  if s.languages.isEmpty then Language.ids else s.languages

/-- The known languages to look at. -/
def knownLanguages (s : Settings α) : List Language :=
  s.activeLanguages.filterMap Language.ofId?

end Settings

end HouseStyle
