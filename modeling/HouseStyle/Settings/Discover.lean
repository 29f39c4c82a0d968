import HouseStyle.Project.Disk
import HouseStyle.Settings.Check
import HouseStyle.Settings.Saved
import HouseStyle.Yaml.Reader

/-!
# Finding the settings of a run

The settings of a run are in the file that is named for it, or else in the first settings file
in the root of the project, or else they are the standard ones.  They have to make sense.
-/

namespace HouseStyle

/-- Why there are no settings for a run. -/
inductive SettingsLoadFault (α : Type) where
  /-- The file cannot be read. -/
  | unreadable (path : Path) (fault : DiskFault)
  /-- The file does not hold settings. -/
  | malformed (path : Path)
  /-- A setting makes no sense. -/
  | invalid (fault : SettingsFault α)

/-- The fault in words. -/
def SettingsLoadFault.message {α : Type} [NumberText α] : SettingsLoadFault α → String
  | unreadable path fault => "failed to load config " ++ path.text ++ ": " ++ fault.message
  | malformed path => "failed to load config " ++ path.text ++ ": not a settings file"
  | invalid fault => fault.message

namespace Settings

/-- The names of settings files. -/
def fileNames : List String := ["stylelearn.yaml", ".stylelearn.yaml"]

/-- The settings file in the root of a project. -/
def discover? (d : Disk) (root : Path) : Option Path :=
  (fileNames.map fun name => root.join ⟨name⟩).find? d.isFile

variable {α : Type} [Scalar α] [NumberText α]

/-- The settings in a file. -/
def ofFile (d : Disk) (path : Path) : Except (SettingsLoadFault α) (Settings α) :=
  match d.readText path with
  | .error fault => .error (.unreadable path fault)
  | .ok text =>
    match (Yaml.parse? text).bind Settings.ofYaml? with
    | some s => .ok s
    | none => .error (.malformed path)

/-- The settings for a project, from the file that is named for the run or from one that is
found. -/
def loadFor (d : Disk) (root : Path) (named : Option Path) :
    Except (SettingsLoadFault α) (Settings α) := do
  let s ← match named.or (discover? d root) with
    | some path => ofFile d path
    | none => .ok .standard
  match s.check with
  | .ok _ => .ok s
  | .error fault => .error (.invalid fault)

end Settings

end HouseStyle
