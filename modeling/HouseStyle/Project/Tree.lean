import HouseStyle.Language
import HouseStyle.Project.Disk
import HouseStyle.Project.Glob
import HouseStyle.Survey.Layout

/-!
# Project trees

A project is what lies below a directory of a disk: its files, with the names on the way to each
of them, and the directories right below the root.  Links below the root are no part of it.

Hidden entries, directories with certain names and paths that match certain patterns are left
out.  What is left is counted in the layout and listed by language, in the order of the paths.
-/

namespace HouseStyle

/-- A file of a project. -/
structure ProjectFile where
  /-- The names on the way to it; none if it is the root itself. -/
  names : List EntryName
  /-- What it holds, if it can be read. -/
  bytes? : Option (List UInt8)
deriving DecidableEq

namespace ProjectFile

/-- The path below the root. -/
def path (f : ProjectFile) : SourcePath := .ofNames f.names

/-- The components of the path of the file in a project with a root. -/
def partsFrom (root : Path) (f : ProjectFile) : List PathPart := root.parts ++ f.names.map .entry

/-- The extension of the file in a project with a root. -/
def extension? (root : Path) (f : ProjectFile) : Option String :=
  PathPart.extension? (f.partsFrom root)

/-- Whether the path of a file comes strictly before that of another one. -/
def before (f g : ProjectFile) : Bool :=
  PathPart.listBefore (f.names.map .entry) (g.names.map .entry)

/-- What an entry of a disk with some names is as a file. -/
def ofEntry? (names : List EntryName) : DiskEntry → Option ProjectFile
  | .file bytes rights => some ⟨names, if rights.readable then some bytes else none⟩
  | _ => none

end ProjectFile

/-- What is left out of a project. -/
structure Exclusion where
  /-- The names of directories. -/
  dirs : List String
  /-- The patterns of paths. -/
  patterns : List (List GlobPart)

namespace Exclusion

/-- Whether a name is hidden: it is a text and starts with a dot. -/
def isHidden (name : EntryName) : Bool :=
  match name.text? with
  | some text => Text.startsWith text.toList "."
  | none => false

/-- Whether a directory with a name belongs to a project. -/
def admitsDir (x : Exclusion) (name : EntryName) : Bool :=
  !isHidden name && !x.dirs.contains name.lossy

/-- Whether a directory right below the root is listed under the text that is shown for its
name. -/
def admitsTop (x : Exclusion) (name : String) : Bool :=
  !Text.startsWith name.toList "." && !x.dirs.contains name

/-- The bytes of a path of names. -/
def pathBytes (names : List EntryName) : List UInt8 :=
  List.intercalate [0x2F] (names.map EntryName.bytes)

/-- Whether the file at the end of some names belongs to a project. -/
def admits (x : Exclusion) (names : List EntryName) : Bool :=
  names.dropLast.all x.admitsDir && !names.getLast?.any isHidden
    && !x.patterns.any fun p => Glob.isMatch p (pathBytes names)

end Exclusion

/-- A project. -/
structure ProjectTree where
  /-- The path of the root. -/
  root : Path
  /-- The files. -/
  files : List ProjectFile
  /-- The names of the directories right below the root. -/
  topDirs : List EntryName

namespace ProjectTree

/-- The names on the way from a place to an entry below it. -/
def namesBelow? (place : DiskPlace) (e : DiskPlace × DiskEntry) :
    Option (List EntryName × DiskEntry) :=
  if place.isPrefixOf e.1 && place.length < e.1.length then some (e.1.drop place.length, e.2)
  else none

/-- The project whose root is the directory at a place. -/
def ofDirectory (d : Disk) (root : Path) (place : DiskPlace) : ProjectTree :=
  let below := d.entries.filterMap (namesBelow? place)
  { root
    files := below.filterMap fun e => ProjectFile.ofEntry? e.1 e.2
    topDirs := below.filterMap fun e =>
      match e with
      | ([name], .directory) => some name
      | _ => none }

/-- The project at a path of a disk.  A file can be a project of its own, but a link to a file
is none. -/
def ofDisk (d : Disk) (root : Path) : ProjectTree :=
  match d.target root with
  | .ok ⟨place, some .directory⟩ => ofDirectory d root place
  | _ =>
    match d.targetItself root with
    | .ok ⟨_, some e⟩ => ⟨root, (ProjectFile.ofEntry? [] e).toList, []⟩
    | _ => ⟨root, [], []⟩

/-- The files that belong to a project. -/
def visible (p : ProjectTree) (x : Exclusion) : List ProjectFile :=
  p.files.filter fun f => x.admits f.names

/-- The language of a file, by its extension. -/
def languageOf? (p : ProjectTree) (f : ProjectFile) : Option Language :=
  (f.extension? p.root).bind Language.ofExtension?

/-- The layout of a project. -/
def layout (p : ProjectTree) (x : Exclusion) : Layout :=
  let files := p.visible x
  { topDirs := Layout.names ((p.topDirs.map EntryName.lossy).filter x.admitsTop)
    sourceFiles := Tally.ofLabels (files.filterMap fun f => (p.languageOf? f).map Language.id)
    fileCount := files.length }

/-- The files of a language in the order of their paths, at most `limit` of them. -/
def collect (p : ProjectTree) (x : Exclusion) (limit : Option Nat) (language : Language) :
    List ProjectFile :=
  let files := (p.visible x).filter fun f =>
    (f.extension? p.root).any language.extensions.contains
  let sorted := files.mergeSort fun f g => !g.before f
  match limit with
  | some n => sorted.take n
  | none => sorted

end ProjectTree

end HouseStyle
