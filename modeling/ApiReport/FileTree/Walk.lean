import ApiReport.FileTree
import ApiReport.Text.Utf8

/-!
# Walking through a file tree

A path is followed step by step from the root. A link on the way is replaced by its target, also as
the last step; a walk may pass a bounded number of links. It ends at an entry that is no link, or at
a vacant place in an existing directory.

Key definitions: `FileTree.Fault`, `FileTree.Found`, `FileTree.walkToLink`, `FileTree.walk`,
`FileTree.find`, `FileTree.stat`, `FileTree.exists?`, `FileTree.isDirectory`, `FileTree.read`,
`FileTree.readText`.
-/
namespace ApiReport.FileTree

/-- Why an operation on files fails. -/
inductive Fault where
  | missing
  | notDirectory
  | isDirectory
  | occupied
  | tooManyLinks
  deriving DecidableEq, Repr

def Fault.code : Fault → String
  | missing => "ENOENT"
  | notDirectory => "ENOTDIR"
  | isDirectory => "EISDIR"
  | occupied => "EEXIST"
  | tooManyLinks => "ELOOP"

def Fault.meaning : Fault → String
  | missing => "no such file or directory"
  | notDirectory => "not a directory"
  | isDirectory => "illegal operation on a directory"
  | occupied => "file already exists"
  | tooManyLinks => "too many symbolic links encountered"

/-- The wording of a fault of an operation. -/
def Fault.message (f : Fault) (operation : String) : String :=
  f.code ++ ": " ++ f.meaning ++ ", " ++ operation

/-- Where a walk ends: at an entry, or at a vacant place of a directory. -/
inductive Found where
  | entry (l : Location) (e : Entry)
  | vacant (l : Location)
  deriving DecidableEq, Repr

/-- Follows steps from a directory up to the first link, from where the walk goes on in another way:
over the names of the target and the steps that are left. -/
def walkToLink (t : FileTree) (goOn : List String → Except Fault Found) (here : Location) :
    List String → Except Fault Found
  | [] => .ok (.entry here .directory)
  | n :: rest =>
    if n = "." then walkToLink t goOn here rest
    else if n = ".." then walkToLink t goOn here.dropLast rest
    else
      match t.entryAt? (here ++ [n]) with
      | none => if rest = [] then .ok (.vacant (here ++ [n])) else .error .missing
      | some .directory => walkToLink t goOn (here ++ [n]) rest
      | some (.file bytes) =>
        if rest = [] then .ok (.entry (here ++ [n]) (.file bytes)) else .error .notDirectory
      | some (.link target) => goOn (target ++ rest)

/-- Follows steps from a directory, passing at most a given number of links. -/
def walk (t : FileTree) : (links : Nat) → (here : Location) → (steps : List String) →
    Except Fault Found
  | 0 => t.walkToLink fun _ => .error .tooManyLinks
  | links + 1 => t.walkToLink fun steps => walk t links [] steps

/-- How many links a walk may pass. -/
def maxLinks : Nat := 40

/-- Where a path leads. -/
def find (t : FileTree) (path : String) : Except Fault Found := walk t maxLinks [] (Path.steps path)

/-- The entry that a path leads to, with its location. -/
def stat (t : FileTree) (path : String) : Except Fault (Location × Entry) :=
  match t.find path with
  | .ok (.entry l e) => .ok (l, e)
  | .ok (.vacant _) => .error .missing
  | .error f => .error f

/-- Whether a path leads to an entry. The empty path leads nowhere. -/
def exists? (t : FileTree) (path : String) : Bool := path ≠ "" && (t.stat path).isOk

/-- Whether a path leads to a directory. -/
def isDirectory (t : FileTree) (path : String) : Bool :=
  match t.stat path with
  | .ok (_, .directory) => path ≠ ""
  | _ => false

/-- The bytes of the file that a path leads to. -/
def read (t : FileTree) (path : String) : Except Fault (List UInt8) :=
  match t.stat path with
  | .ok (_, .file bytes) => .ok bytes
  | .ok _ => .error .isDirectory
  | .error f => .error f

/-- The text of the file that a path leads to. -/
def readText (t : FileTree) (path : String) : Except Fault String :=
  (t.read path).map fun bytes => String.ofList (Text.Utf8.decode bytes)

end ApiReport.FileTree
