import HouseStyle.CommandLine.Run
import Std.Data.HashMap
import Std.Time.DateTime.Timestamp

/-!
# The program

The outermost layer: it looks at the files that a command can ask for, runs the command on what
it has seen, and makes the changes that the command has made.
-/

namespace HouseStyle.Terminal

open HouseStyle.CommandLine

/-- A place in the words of the operating system. -/
def spelling (place : DiskPlace) : String := "/" ++ Text.join "/" (place.map EntryName.lossy)

/-- The place that a path names from a directory. -/
def placeFrom (home : DiskPlace) (p : Path) : DiskPlace :=
  p.parts.foldl (fun place part =>
    match part with
    | .root => []
    | .here => place
    | .up => place.dropLast
    | .entry name => place ++ [name]) home

/-- Whether a command may ask for what is in a file with a name, without being told to. -/
def isRead (name : String) : Bool :=
  let results := [(Profile.format (α := Float)).fileName, (Overview.format (α := Float)).fileName]
  ((EntryName.text name).extension?.bind Language.ofExtension?).isSome || Settings.fileNames.contains name
    || (results ++ results.map fun r => r ++ ".tmp").contains name

/-- A file that is not read. -/
def unread : DiskEntry := .file [] ⟨false, false⟩

/-- The file at a place, with what is in it if that can be read. -/
def fileAt (place : DiskPlace) : IO DiskEntry := do
  try
    return .file (← IO.FS.readBinFile (spelling place)).toList .all
  catch _ => return unread

/-- Everything below a directory. -/
partial def entriesBelow (place : DiskPlace) : IO (List (DiskPlace × DiskEntry)) := do
  let entries ← try (System.mkFilePath [spelling place]).readDir catch _ => pure #[]
  let mut seen := []
  for e in entries do
    let next := place ++ [.text e.fileName]
    match (← e.path.symlinkMetadata).type with
    | .dir => seen := (next, .directory) :: (← entriesBelow next) ++ seen
    | .file =>
      let file ← if isRead e.fileName then fileAt next else pure unread
      seen := (next, file) :: seen
    | .symlink =>
      let target ← try IO.FS.realPath e.path catch _ => pure e.path
      seen := (next, .link (Path.parts ⟨target.toString⟩)) :: seen
    | .other => pure ()
  return seen

/-- What is at a place, links being followed. -/
def thingAt? (place : DiskPlace) : IO (Option DiskEntry) := do
  try
    match (← (System.mkFilePath [spelling place]).metadata).type with
    | .dir => return some .directory
    | _ => return some (← fileAt place)
  catch _ => return none

/-- Look at what is on the way to a path and at the end of it, and at everything below it if that
is asked for. -/
def look (d : Disk) (deep : Bool) (p : Path) : IO Disk := do
  let place := placeFrom d.home p
  let mut d := d
  for n in [1:place.length + 1] do
    let next := place.take n
    if (d.get? next).isNone then
      match ← thingAt? next with
      | some e => d := d.set next e
      | none => return d
  if deep && d.get? place == some .directory then
    let below ← entriesBelow place
    d := { d with entries := below ++ d.entries.filter fun e => (below.lookup e.1).isNone }
  return d

/-- Make the changes that turn a disk into another one.  A file is replaced as a whole. -/
def carryOut (before after : Disk) : IO Unit := do
  let old : Std.HashMap DiskPlace DiskEntry := .ofList before.entries
  for (place, e) in after.entries.reverse do
    if old[place]? != some e then
      match e with
      | .directory => IO.FS.createDirAll (spelling place)
      | .file bytes _ =>
        let draft := spelling place ++ ".new"
        IO.FS.writeBinFile draft ⟨bytes.toArray⟩
        IO.FS.rename draft (spelling place)
      | _ => pure ()
  for (place, _) in before.entries do
    if (after.get? place).isNone then IO.FS.removeFile (spelling place)

/-- The number of seconds since the start of 1970. -/
def clock : IO Float := do
  return Float.ofInt (← Std.Time.Timestamp.now).toNanosecondsSinceUnixEpoch.val / 1e9

/-- Run a command on the disk of the machine. -/
def perform (c : Command) : IO Outcome := do
  let here := (Path.mk (← IO.currentDir).toString).parts.filterMap PathPart.name?
  let mut seen := Disk.empty here
  for p in c.file?.toList do seen ← look seen false p
  for p in c.root?.toList do seen ← look seen true p
  for p in (c.stateDir? seen).toList do
    if !seen.holds p then seen ← look seen true p
  let (result, after) := c.run (← clock) seen
  carryOut seen after
  return Outcome.ofResult (← (← IO.getStdout).isTty) result

end HouseStyle.Terminal

/-- Run the program with the words of its command line. -/
def main (words : List String) : IO UInt32 := do
  match HouseStyle.CommandLine.Command.ofWords words with
  | .error u =>
    if u.code = 0 then IO.print u.message else IO.eprint u.message
    return u.code.toUInt32
  | .ok c =>
    try
      let outcome ← HouseStyle.Terminal.perform c
      IO.print outcome.output
      IO.eprint outcome.errors
      return outcome.code.toUInt32
    catch e =>
      IO.eprintln (toString e)
      return 1
