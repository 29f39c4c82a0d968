import HouseStyle.Project.Disk
import HouseStyle.Settings.Check
import HouseStyle.Snapshot.Check

/-!
# Why nothing is learned about a project

Files that cannot be read are passed over, so only a few things can go wrong for a project as a
whole: there is no project, a setting makes no sense, or a result cannot be kept or found again.
-/

namespace HouseStyle

/-- Why something about a project fails. -/
inductive ProjectFault (α : Type) where
  /-- There is no directory at the path of the project. -/
  | noRoot (root : Path)
  /-- Nothing was saved at a path. -/
  | notSaved (path : Path)
  /-- What is at a path is no saved result. -/
  | malformed (path : Path)
  /-- A saved result has a value outside its range. -/
  | outOfRange (path : Path) (fault : RangeFault α)
  /-- The main language is not known. -/
  | unknownLanguage (name : String)
  /-- A pattern of paths to leave out is none. -/
  | settings (fault : SettingsFault α)
  /-- The disk refuses something. -/
  | disk (fault : DiskFault)

/-- The fault in words. -/
def ProjectFault.message {α : Type} [NumberText α] : ProjectFault α → String
  | noRoot root => "project root not found: " ++ root.text
  | notSaved path => "no saved snapshot at " ++ path.text
  | malformed path => "invalid snapshot " ++ path.text ++ ": not a saved result"
  | outOfRange path fault => "invalid snapshot " ++ path.text ++ ": " ++ fault.message
  | unknownLanguage name => "unknown language: " ++ name
  | settings fault => fault.message
  | disk fault => fault.message

end HouseStyle
