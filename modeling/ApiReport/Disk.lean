import ApiReport.FileTree.Change
import ApiReport.FileTree.Listing
import Std.Time.DateTime.Timestamp

/-!
# The disk

The part of the disk that a run looks at is read into a file tree before the run, and what the run
has changed in the tree is written back after it.

Key definitions: `Disk.readPath`, `Disk.readBelow`, `Disk.changes`, `Disk.writeBack`, `Disk.now`.
-/
namespace ApiReport.Disk

/-- Sets an entry that has been seen on the disk. -/
def note (t : FileTree) (l : Location) (e : Entry) : FileTree :=
  match t.set l e with
  | .ok t => t
  | .error _ => t

/-- The entry as its directory lists it; the root stands in itself. -/
def entryOf (l : Location) : IO.FS.DirEntry :=
  IO.FS.DirEntry.mk (Path.ofLocation l.dropLast) (l.getLast?.getD ".")

/-- The kind of an entry, links not being followed. -/
def kindAt? (l : Location) : IO (Option IO.FS.FileType) := do
  try
    let m ← (entryOf l).path.symlinkMetadata
    return some m.type
  catch _ => return none

/-- The place that a link leads to, through further links; a link to nothing leads to itself. -/
def targetOf (l : Location) : IO Location := do
  try
    let p ← IO.FS.realPath (Path.ofLocation l)
    return Path.locate [] p.toString
  catch _ => return l

def bytesAt (l : Location) : IO (List UInt8) := do
  return (← IO.FS.readBinFile (Path.ofLocation l)).toList

/-- Reads what stands on the way that names lead from a location. Links are read with what they lead
to, as far as the budget goes. -/
def readNames (budget : Nat) (t : FileTree) (here : Location) (names : List String) : IO FileTree :=
  match names with
  | [] => return t
  | n :: rest => do
    let l := here ++ [n]
    match ← kindAt? l with
    | some .dir => readNames budget (note t l .directory) l rest
    | some .file => return note t l (.file (← bytesAt l))
    | some .symlink =>
      let target ← targetOf l
      let t := note t l (.link target)
      match budget with
      | 0 => return t
      | budget + 1 =>
        if target = l then return t else readNames budget t [] (target ++ rest)
    | _ => return t
termination_by (budget, names.length)

/-- Reads what stands on the way to a path. -/
def readPath (t : FileTree) (path : String) : IO FileTree :=
  readNames FileTree.maxLinks t [] (Path.locate [] path)

/-- Reads the files below a directory whose names end in a given way. -/
partial def readInside (ending : String) (t : FileTree) (l : Location) : IO FileTree := do
  let mut tree := t
  for e in ← (IO.FS.DirEntry.mk (Path.ofLocation l) ".").path.readDir do
    let k := l ++ [e.fileName]
    match ← kindAt? k with
    | some .dir => tree ← readInside ending (note tree k .directory) k
    | some .file =>
      if FileTree.endsIn ending k then tree := note tree k (.file (← bytesAt k))
    | some .symlink => tree := note tree k (.link (← targetOf k))
    | _ => pure ()
  return tree

/-- Reads a path and, if it leads to a directory, the files below that whose names end in a given
way. -/
def readBelow (t : FileTree) (path ending : String) : IO FileTree := do
  let t ← readPath t path
  match t.stat path with
  | .ok (l, .directory) => readInside ending t l
  | _ => return t

/-- The files of a tree that another tree does not hold in the same way. -/
def changes (before after : FileTree) : List (Location × List UInt8) :=
  after.entries.filterMap fun e =>
    match e.2 with
    | .file bytes => if before.entryAt? e.1 = some (.file bytes) then none else some (e.1, bytes)
    | _ => none

/-- Writes the files that a run has changed. -/
def writeBack (before after : FileTree) : IO Unit := do
  for (l, bytes) in changes before after do
    IO.FS.createDirAll (Path.ofLocation l.dropLast)
    IO.FS.writeBinFile (Path.ofLocation l) (ByteArray.mk bytes.toArray)

/-- The present instant, in milliseconds of the epoch. -/
def now : IO Int := do
  return (← Std.Time.Timestamp.now).toMillisecondsSinceUnixEpoch.toInt

end ApiReport.Disk
