import HouseStyle.EntryName
import HouseStyle.Text.Lines

/-!
# Paths

A path is a text.  What it denotes is its list of components: empty parts and single dots
inside a path say nothing, two dots stay as they are, and a leading slash or dot is kept.
Paths are compared component by component, so a directory comes right before what is in it.

The names on a path that is written down are texts.  The path of a file that was found on a disk may
have other names too, so it has components of its own beside the text that is shown for it.
-/

namespace HouseStyle

/-- A component of a path. -/
inductive PathPart where
  /-- The root of all directories. -/
  | root
  /-- The directory itself, at the start of a path. -/
  | here
  /-- The directory above. -/
  | up
  /-- The entry of a directory. -/
  | entry (name : EntryName)
deriving DecidableEq, Repr

namespace PathPart

/-- The place of a kind of component in the order. -/
def rank : PathPart → Nat
  | root => 0
  | here => 1
  | up => 2
  | entry _ => 3

/-- Whether a component comes strictly before another one. -/
def before : PathPart → PathPart → Bool
  | entry a, entry b => decide (a.bytes < b.bytes)
  | a, b => decide (a.rank < b.rank)

/-- Whether a list of components comes strictly before another one. -/
def listBefore : List PathPart → List PathPart → Bool
  | [], [] => false
  | [], _ :: _ => true
  | _ :: _, [] => false
  | a :: as, b :: bs => if a = b then listBefore as bs else before a b

/-- The name of an entry. -/
def name? : PathPart → Option EntryName
  | entry name => some name
  | _ => none

/-- The name of the last entry, if some components end with one. -/
def fileName? (parts : List PathPart) : Option EntryName := parts.getLast?.bind name?

/-- The extension of the name of the last entry. -/
def extension? (parts : List PathPart) : Option String :=
  (fileName? parts).bind EntryName.extension?

end PathPart

/-- A path as it is written. -/
structure Path where
  /-- The text of the path. -/
  text : String
deriving DecidableEq, Repr, Inhabited

namespace Path

/-- The component of a part between slashes that is not the first one. -/
def laterPart? (part : List Char) : Option PathPart :=
  if part = [] ∨ part = ['.'] then none
  else if part = ['.', '.'] then some .up
  else some (.entry (.text (String.ofList part)))

/-- The components of a path. -/
def parts (p : Path) : List PathPart :=
  match Text.splitAt '/' p.text.toList with
  | [] => []
  | first :: rest =>
    let later := rest.filterMap laterPart?
    if first = [] then (if rest = [] then [] else .root :: later)
    else if first = ['.'] then .here :: later
    else (laterPart? first).toList ++ later

/-- The components before the last one. -/
def parentParts (p : Path) : List PathPart := p.parts.dropLast

/-- The extension of the file name. -/
def extension? (p : Path) : Option String := PathPart.extension? p.parts

/-- The part of a name before its first dot. -/
def stem (name : String) : String :=
  String.ofList (name.toList.takeWhile (· != '.'))

/-- A path below another one; a path with a leading slash stays as it is. -/
def join (p q : Path) : Path :=
  let base := p.text.toList
  if Text.startsWith q.text.toList "/" ∨ base = [] then q
  else if Text.endsWith base "/" then ⟨p.text ++ q.text⟩
  else ⟨p.text ++ "/" ++ q.text⟩

/-- The names of directories that hold tests. -/
def testDirs : List String := ["tests", "test", "__tests__", "spec", "specs"]

end Path

/-- The path of a file, with names of any kind. -/
structure SourcePath where
  /-- The text that is shown for the path. -/
  text : String
  /-- The components of the path. -/
  parts : List PathPart
deriving DecidableEq, Repr

namespace SourcePath

/-- The path that a text denotes. -/
def ofText (text : String) : SourcePath := ⟨text, Path.parts ⟨text⟩⟩

instance : Coe String SourcePath := ⟨ofText⟩

/-- The path of some names. -/
def ofNames (names : List EntryName) : SourcePath :=
  ⟨Text.join "/" (names.map EntryName.lossy), names.map .entry⟩

/-- The name of the file; nothing if it is no text. -/
def fileName (p : SourcePath) : String :=
  ((PathPart.fileName? p.parts).bind EntryName.text?).getD ""

/-- Whether a path below a project names a test: it lies in a directory of tests, or its name
says so. -/
def isTest (p : SourcePath) : Bool :=
  let name := p.fileName.toList
  let stem := (Path.stem p.fileName).toList
  p.parts.dropLast.any (fun part =>
      (part.name?.map fun n => Path.testDirs.contains n.lossy).getD false)
    || Text.startsWith stem "test_" || Text.endsWith stem "_test" || Text.endsWith stem "_tests"
    || Text.holds name ".test." || Text.holds name ".spec." || p.fileName == "conftest.py"

end SourcePath

end HouseStyle
