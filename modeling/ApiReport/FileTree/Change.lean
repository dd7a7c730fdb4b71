import ApiReport.FileTree.Walk

/-!
# Changing a file tree

A change either succeeds or fails, and leaves a tree in both cases. A single step that fails leaves
the tree as it found it; a change of several steps that fails keeps what its earlier steps have
done.

Key definitions: `FileTree.Change`, `FileTree.single`, `FileTree.set`, `FileTree.makeDirectory`,
`FileTree.makeDirectories`, `FileTree.putFile`, `FileTree.write`.
-/
namespace ApiReport.FileTree

/-- A change of a tree, which may fail on the way. -/
abbrev Change := EStateM Fault FileTree Unit

/-- A step that changes a tree as a whole or not at all. -/
def single (step : FileTree → Except Fault FileTree) : Change := fun t =>
  match step t with
  | .ok t => .ok () t
  | .error f => .error f t

/-- Sets an entry at a location, if the tree takes it there. -/
def set (t : FileTree) (l : Location) (e : Entry) : Except Fault FileTree :=
  if h : t.Takes l then .ok (t.put l e h) else .error .missing

/-- The directory in which the last of some names stands. -/
def parent (t : FileTree) (names : List String) : Except Fault Location :=
  match t.walk maxLinks [] names.dropLast with
  | .ok (.entry l .directory) => .ok l
  | .ok (.entry _ _) => .error .notDirectory
  | .ok (.vacant _) => .error .missing
  | .error f => .error f

/-- The tree with a new directory where names lead. A link is not followed as the last of them. -/
def newDirectory (t : FileTree) (names : List String) : Except Fault FileTree := do
  let l := Path.collapse (← t.parent names) names.getLast?.toList
  if (t.entryAt? l).isSome then .error .occupied else t.set l .directory

/-- The tree as it is, if names lead to a directory. -/
def oldDirectory (t : FileTree) (names : List String) : Except Fault FileTree :=
  match t.walk maxLinks [] names with
  | .ok (.entry _ .directory) => .ok t
  | .ok (.entry _ _) => .error .occupied
  | .ok (.vacant _) => .error .missing
  | .error f => .error f

/-- The tree with a directory where names lead; one that is there already will do. -/
def makeDirectory (t : FileTree) (names : List String) : Except Fault FileTree :=
  match t.newDirectory names with
  | .error .occupied | .error .tooManyLinks => t.oldDirectory names
  | r => r

/-- Whether nothing stands where the directory should be that holds the last of some names. -/
def lacksParent (t : FileTree) (names : List String) : Bool :=
  match t.parent names with
  | .error .missing => true
  | _ => false

/-- Makes the directory where names lead, and before it the directories above it that are missing.
-/
def makeDirectories (names : List String) : Change := fun t =>
  if _h : names ≠ [] ∧ t.lacksParent names then
    (makeDirectories names.dropLast).bind (fun _ => single (·.makeDirectory names)) t
  else single (·.makeDirectory names) t
termination_by names.length
decreasing_by
  have := List.length_pos_iff.2 _h.1
  simp only [List.length_dropLast]
  omega

/-- The tree with a file at a path, through links; a file that is there is written over. -/
def putFile (t : FileTree) (path : String) (bytes : List UInt8) : Except Fault FileTree := do
  match ← t.find path with
  | .entry l (.file _) => t.set l (.file bytes)
  | .vacant l => t.set l (.file bytes)
  | .entry _ _ => .error .isDirectory

/-- Writes a file, after making the directories above it. -/
def write (path : String) (bytes : List UInt8) : Change :=
  (makeDirectories (Path.names path).dropLast).bind fun _ => single (·.putFile path bytes)

end ApiReport.FileTree
