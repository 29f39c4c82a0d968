import HouseStyle.Path
import HouseStyle.Text.Utf8

/-!
# Disks

A disk is what a run of the program can see of the files around it: which directories, files and
links there are, and in which directory the program was started.  An entry of the disk has a
place, the list of the names on the way to it from the root of all directories.

A path is followed to a place name by name, starting in the directory of the program unless it
starts at the root.  Two dots go one directory up, and a link goes where it points.  A dot or a
slash at the end asks for a directory.

A file lies at one place, and there it may be open for reading, for writing, or for both.  It keeps
its rights when it is written over or moved.

A change of a disk may be refused, for a reason that cannot be seen at the entries, and it may fail
halfway.  So every change gives the disk behind it, whether or not it succeeds.
-/

namespace HouseStyle

/-- What may be done with a file. -/
structure FileRights where
  /-- Whether the file can be read. -/
  readable : Bool
  /-- Whether the file can be written over. -/
  writable : Bool
deriving DecidableEq, Repr

/-- The rights of a file that was made anew. -/
def FileRights.all : FileRights := ⟨true, true⟩

/-- What is at a place of a disk. -/
inductive DiskEntry where
  /-- A directory. -/
  | directory
  /-- A file that holds some bytes. -/
  | file (bytes : List UInt8) (rights : FileRights)
  /-- A link to the end of a way, which starts in the directory of the link. -/
  | link (target : List PathPart)
deriving DecidableEq

/-- A place of a disk. -/
abbrev DiskPlace := List EntryName

/-- Why a disk refuses something. -/
inductive DiskFault where
  /-- There is nothing at the path. -/
  | missing
  /-- Something that is no directory was to hold an entry. -/
  | notDirectory
  /-- A directory was to be read or written. -/
  | isDirectory
  /-- There is something at the path already. -/
  | occupied
  /-- The file is not open for what was to be done. -/
  | denied
  /-- The links lead in a circle. -/
  | circle
  /-- The bytes of the file are no text. -/
  | notText
  /-- The file would be too large. -/
  | tooLarge
  /-- The change is refused, for a reason that is given in words. -/
  | refused (reason : String)
deriving DecidableEq, Repr

/-- The fault in words. -/
def DiskFault.message : DiskFault → String
  | missing => "No such file or directory (os error 2)"
  | notDirectory => "Not a directory (os error 20)"
  | isDirectory => "Is a directory (os error 21)"
  | occupied => "File exists (os error 17)"
  | denied => "Permission denied (os error 13)"
  | circle => "Too many levels of symbolic links (os error 40)"
  | notText => "stream did not contain valid UTF-8"
  | tooLarge => "File too large (os error 27)"
  | refused reason => reason

/-- A change that a disk may be asked for. -/
inductive DiskAct where
  /-- To make a directory at a place. -/
  | makeDirectory (place : DiskPlace)
  /-- To write a file at a place. -/
  | write (place : DiskPlace)
  /-- To move what is at a place to another one. -/
  | rename (source target : DiskPlace)
deriving DecidableEq

/-- What a disk does not allow, whatever its entries are. -/
structure DiskLimits where
  /-- Why a change is refused, if it is. -/
  refusal? : DiskAct → Option String
  /-- The greatest number of bytes of the file at a place, if there is one. -/
  room? : DiskPlace → Option Nat

/-- The limits of a disk that allows everything. -/
def DiskLimits.none : DiskLimits := ⟨fun _ => .none, fun _ => .none⟩

/-- What a run of the program can see of the files around it. -/
structure Disk where
  /-- The entries by their places.  The root is a directory without being listed. -/
  entries : List (DiskPlace × DiskEntry)
  /-- The directory in which the program was started. -/
  home : DiskPlace
  /-- What it does not allow. -/
  limits : DiskLimits

/-- What becomes of a disk by a change: whether it is made, and the disk behind it. -/
abbrev DiskChange := Except DiskFault Unit × Disk

/-- Where a path leads to, and what is there. -/
structure DiskTarget where
  /-- The place. -/
  place : DiskPlace
  /-- What is there, if there is something. -/
  thing? : Option DiskEntry

namespace Disk

/-- A disk with nothing but the directory of the program. -/
def empty (home : DiskPlace) : Disk :=
  ⟨(List.range home.length).map fun n => (home.take (n + 1), .directory), home, .none⟩

/-- What is at a place. -/
def get? (d : Disk) (place : DiskPlace) : Option DiskEntry :=
  if place.isEmpty then some .directory else d.entries.lookup place

/-- Put an entry at a place, in the stead of what is there. -/
def set (d : Disk) (place : DiskPlace) (e : DiskEntry) : Disk :=
  { d with entries := (place, e) :: d.entries.filter fun x => x.1 != place }

/-- Take away what is at a place and below it. -/
def erase (d : Disk) (place : DiskPlace) : Disk :=
  { d with entries := d.entries.filter fun x => !place.isPrefixOf x.1 }

/-- How many links a path may lead through. -/
def linkLimit : Nat := 40

/-- Where the rest of a path leads to from the directory at a place.  A link at the end is
followed if `through` is set. -/
def follow (d : Disk) (through : Bool) :
    (links : Nat) → DiskPlace → List PathPart → Except DiskFault DiskTarget
  | _, place, [] => .ok ⟨place, some .directory⟩
  | links, _, .root :: rest => follow d through links [] rest
  | links, place, .here :: rest => follow d through links place rest
  | links, place, .up :: rest => follow d through links place.dropLast rest
  | links, place, .entry name :: rest =>
    let next := place ++ [name]
    match d.get? next with
    | none => if rest.isEmpty then .ok ⟨next, none⟩ else .error .missing
    | some .directory => follow d through links next rest
    | some (.link target) =>
      if rest.isEmpty && !through then .ok ⟨next, some (.link target)⟩
      else
        match links with
        | 0 => .error .circle
        | links + 1 => follow d through links place (target ++ rest)
    | some e => if rest.isEmpty then .ok ⟨next, some e⟩ else .error .notDirectory
termination_by links _ parts => (links, parts.length)

/-- The way that a path describes: its components, where each single dot and a slash at the end
stand for the directory itself. -/
def way (p : Path) : List PathPart :=
  match Text.splitAt '/' p.text.toList with
  | [] => []
  | first :: rest =>
    let later := rest.filterMap fun part =>
      if part = [] then none else if part = ['.'] then some .here else Path.laterPart? part
    let last := if rest.getLast? = some [] then [.here] else []
    if first = [] then (if rest = [] then [] else .root :: later ++ last)
    else if first = ['.'] then .here :: later ++ last
    else (Path.laterPart? first).toList ++ later ++ last

/-- Where a way leads to. -/
def targetOf (d : Disk) (through : Bool) (parts : List PathPart) : Except DiskFault DiskTarget :=
  if parts.isEmpty then .error .missing else d.follow through linkLimit d.home parts

/-- Where a path leads to, through a link at its end. -/
def target (d : Disk) (p : Path) : Except DiskFault DiskTarget := d.targetOf true (way p)

/-- Where a path leads to, a link at its end being the target itself. -/
def targetItself (d : Disk) (p : Path) : Except DiskFault DiskTarget := d.targetOf false (way p)

/-- What is at the end of a path, through a link there. -/
def thingAt? (d : Disk) (p : Path) : Option DiskEntry :=
  match d.target p with
  | .ok t => t.thing?
  | .error _ => none

/-- Whether there is a directory at the end of a path. -/
def isDirectory (d : Disk) (p : Path) : Bool := d.thingAt? p == some .directory

/-- Whether there is something at the end of a path. -/
def holds (d : Disk) (p : Path) : Bool := (d.thingAt? p).isSome

/-- Whether there is a file at the end of a path. -/
def isFile (d : Disk) (p : Path) : Bool := d.holds p && !d.isDirectory p

/-- The bytes of the file at the end of a path. -/
def read (d : Disk) (p : Path) : Except DiskFault (List UInt8) := do
  match (← d.target p).thing? with
  | some (.file bytes rights) => if rights.readable then .ok bytes else .error .denied
  | some .directory => .error .isDirectory
  | some (.link _) => .error .circle
  | none => .error .missing

/-- The text of the file at the end of a path. -/
def readText (d : Disk) (p : Path) : Except DiskFault (List Char) := do
  match Text.decode (← d.read p) with
  | .ok text => .ok text
  | .error _ => .error .notText

/-- Do what was asked for, unless that is refused. -/
def unlessRefused (d : Disk) (act : DiskAct) (change : DiskChange) : DiskChange :=
  match d.limits.refusal? act with
  | some reason => (.error (.refused reason), d)
  | none => change

/-- Put some bytes into the file at a place, as many of them as it can hold. -/
def fill (d : Disk) (place : DiskPlace) (bytes : List UInt8) (rights : FileRights) : DiskChange :=
  match d.limits.room? place with
  | none => (.ok (), d.set place (.file bytes rights))
  | some n =>
    (if bytes.length ≤ n then .ok () else .error .tooLarge,
      d.set place (.file (bytes.take n) rights))

/-- Write a file at the end of a path, over the one that is there. -/
def write (d : Disk) (p : Path) (bytes : List UInt8) : DiskChange :=
  if Text.endsWith p.text.toList "/" then (.error .isDirectory, d)
  else
    match d.target p with
    | .error fault => (.error fault, d)
    | .ok ⟨_, some .directory⟩ => (.error .isDirectory, d)
    | .ok ⟨_, some (.link _)⟩ => (.error .circle, d)
    | .ok ⟨place, some (.file _ rights)⟩ =>
      if rights.writable then d.unlessRefused (.write place) (d.fill place bytes rights)
      else (.error .denied, d)
    | .ok ⟨place, none⟩ => d.unlessRefused (.write place) (d.fill place bytes .all)

/-- Make a directory at the end of a way. -/
def makeDirectory (d : Disk) (parts : List PathPart) : DiskChange :=
  match d.targetOf false parts with
  | .error fault => (.error fault, d)
  | .ok ⟨_, some _⟩ => (.error .occupied, d)
  | .ok ⟨place, none⟩ => d.unlessRefused (.makeDirectory place) (.ok (), d.set place .directory)

/-- Make a directory at the end of a way, unless there is one. -/
def ensureDirectory (d : Disk) (parts : List PathPart) : DiskChange :=
  match d.makeDirectory parts with
  | (.ok _, d) => (.ok (), d)
  | (.error fault, d) =>
    match d.targetOf true parts with
    | .ok ⟨_, some .directory⟩ => (.ok (), d)
    | _ => (.error fault, d)

/-- Make a directory at the end of a way.  If there is nothing to make it in, make the directories
above first. -/
def ensureBelow (d : Disk) (parts : List PathPart) (above : Disk → DiskChange) : DiskChange :=
  match d.ensureDirectory parts with
  | (.error .missing, d) =>
    match above d with
    | (.ok _, d) => d.ensureDirectory parts
    | (.error fault, d) => (.error fault, d)
  | change => change

/-- Make directories of all components, the last one given first, as far as they are missing. -/
def makeDirectoriesUp : List PathPart → Disk → DiskChange
  | [], d => (.ok (), d)
  | last :: above, d => d.ensureBelow (last :: above).reverse (makeDirectoriesUp above)

/-- A way without a slash at its end. -/
def wayToName (p : Path) : List PathPart :=
  match (p.text.toList.reverse.dropWhile (· == '/')).reverse with
  | [] => way p
  | text => way ⟨String.ofList text⟩

/-- Make a directory at the end of a path and all directories above it, as far as they are
missing. -/
def makeDirectories (d : Disk) (p : Path) : DiskChange :=
  if p.parts.isEmpty then (.ok (), d)
  else d.ensureBelow (wayToName p) (makeDirectoriesUp p.parts.reverse.tail)

/-- Move a file to another path, over the file that is there. -/
def rename (d : Disk) (source target : Path) : DiskChange :=
  match d.targetItself source, d.targetItself target with
  | .error fault, _ => (.error fault, d)
  | _, .error fault => (.error fault, d)
  | .ok ⟨_, none⟩, _ => (.error .missing, d)
  | .ok ⟨_, some .directory⟩, _ => (.error .isDirectory, d)
  | _, .ok ⟨_, some .directory⟩ => (.error .isDirectory, d)
  | .ok ⟨place, some e⟩, .ok t =>
    d.unlessRefused (.rename place t.place) (.ok (), (d.erase place).set t.place e)

end Disk

end HouseStyle
