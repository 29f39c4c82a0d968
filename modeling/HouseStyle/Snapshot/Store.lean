import HouseStyle.Json.Writer
import HouseStyle.Overview.Saved
import HouseStyle.Project.Fault

/-!
# Where results are kept

A store is a directory with at most one profile and one overview.  A result is saved in three
steps: the directory is made, the text is written to a draft beside the result, and the draft is
moved over the result.  So the result is whole at any time: it is the earlier one until the last
step, and the new one after it.  A result is loaded only if its values lie in their ranges.
-/

namespace HouseStyle

/-- How a kind of results is saved. -/
structure SavedFormat (α β : Type) where
  /-- The name of the file. -/
  fileName : String
  /-- The result in a document. -/
  toJson : β → Json α
  /-- The result that a document spells. -/
  ofDocument? : Document → Option β
  /-- Whether the values lie in their ranges. -/
  check : β → Except (RangeFault α) Unit

/-- How profiles are saved. -/
def Profile.format {α : Type} [Scalar α] [NumberText α] : SavedFormat α (Profile α) :=
  ⟨"learning_result.json", Profile.toJson, Profile.ofDocument? Document.depthLimit, Profile.check⟩

/-- How overviews are saved. -/
def Overview.format {α : Type} [Scalar α] [NumberText α] : SavedFormat α (Overview α) :=
  ⟨"integrated_learning_result.json", Overview.toJson, Overview.ofDocument? Document.depthLimit,
    Overview.check⟩

namespace SavedFormat

variable {α β : Type} [NumberText α]

/-- The text of a saved result. -/
def encode (format : SavedFormat α β) (value : β) : String := (format.toJson value).prettyText

/-- The result that a text spells, whether or not its values lie in their ranges. -/
def decode? (format : SavedFormat α β) (text : List Char) : Option β :=
  (Document.parse? text).bind format.ofDocument?

end SavedFormat

/-- A directory in which results are kept. -/
structure Store where
  /-- The path of the directory. -/
  dir : Path
deriving DecidableEq, Repr

/-- A step of saving a result. -/
inductive SaveStep where
  /-- Make the directory. -/
  | makeDirectory
  /-- Write the text to the draft. -/
  | writeDraft
  /-- Move the draft over the result. -/
  | publish
deriving DecidableEq, Repr

namespace Store

variable {α β : Type} [NumberText α]

/-- The path of a kind of results. -/
def pathOf (s : Store) (format : SavedFormat α β) : Path := s.dir.join ⟨format.fileName⟩

/-- The path of the draft of a kind of results. -/
def draftOf (s : Store) (format : SavedFormat α β) : Path :=
  s.dir.join ⟨format.fileName ++ ".tmp"⟩

/-- What a step of saving a result makes of a disk. -/
def step (s : Store) (format : SavedFormat α β) (value : β) (d : Disk) : SaveStep → DiskChange
  | .makeDirectory => d.makeDirectories s.dir
  | .writeDraft => d.write (s.draftOf format) (Text.encode (format.encode value))
  | .publish => d.rename (s.draftOf format) (s.pathOf format)

/-- The steps of saving a result. -/
def steps : List SaveStep := [.makeDirectory, .writeDraft, .publish]

/-- Take some steps, up to the first one that the disk refuses. -/
def takeSteps (s : Store) (format : SavedFormat α β) (value : β) (d : Disk) :
    List SaveStep → DiskChange
  | [] => (.ok (), d)
  | step :: more =>
    match s.step format value d step with
    | (.ok _, d) => takeSteps s format value d more
    | (.error fault, d) => (.error fault, d)

/-- Save a result: the path of the saved result, and the disk behind it. -/
def save (s : Store) (format : SavedFormat α β) (value : β) (d : Disk) :
    Except (ProjectFault α) Path × Disk :=
  match s.takeSteps format value d steps with
  | (.ok _, d) => (.ok (s.pathOf format), d)
  | (.error fault, d) => (.error (.disk fault), d)

/-- The saved result. -/
def load (s : Store) (format : SavedFormat α β) (d : Disk) : Except (ProjectFault α) β :=
  let path := s.pathOf format
  match d.readText path with
  | .error .missing => .error (.notSaved path)
  | .error fault => .error (.disk fault)
  | .ok text =>
    match format.decode? text with
    | none => .error (.malformed path)
    | some value =>
      match format.check value with
      | .ok _ => .ok value
      | .error fault => .error (.outOfRange path fault)

/-- The saved result, if there is one. -/
def load? (s : Store) (format : SavedFormat α β) (d : Disk) :
    Except (ProjectFault α) (Option β) :=
  match s.load format d with
  | .ok value => .ok (some value)
  | .error (.notSaved _) => .ok none
  | .error fault => .error fault

/-- Save a result about a project, of which the root has to be a directory. -/
def saveFor (s : Store) (root : Path) (format : SavedFormat α β) (value : β) (d : Disk) :
    Except (ProjectFault α) Path × Disk :=
  if d.isDirectory root then s.save format value d else (.error (.noRoot root), d)

end Store

/-- The store of the results about a project. -/
def Settings.store {α : Type} [Scalar α] (s : Settings α) (root : Path) : Store :=
  ⟨s.stateDirFor root⟩

end HouseStyle
