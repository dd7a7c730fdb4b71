import ApiReport.Text.Pieces
import ApiReport.Verb

/-!
# Paths

A path is a text of names separated by slashes; a leading slash makes it absolute. A location is the
list of names from the root, without `.` and `..`.

Key definitions: `Path.names`, `Path.IsName`, `Path.steps`, `Path.collapse`, `Path.ofLocation`,
`Path.locate`, `Path.resolve`, `Path.child`, `Path.within`, `Path.baseName`, `Path.extension`,
`Path.relative`, `Path.display`.
-/
namespace ApiReport

/-- The names on the way from the root to an entry. -/
abbrev Location := List String

namespace Path

/-- The names of a path: its non-empty pieces. -/
def names (path : String) : List String :=
  ((Text.pieces '/' path.toList).filter fun p => !p.isEmpty).map String.ofList

/-- A text that can name an entry of a directory. -/
def IsName (n : String) : Prop := n ≠ "" ∧ n ≠ "." ∧ n ≠ ".." ∧ '/' ∉ n.toList

instance (n : String) : Decidable (IsName n) := inferInstanceAs (Decidable (_ ∧ _))

/-- The steps that a path takes: its names and, if it ends in a slash and so has to lead to a
directory, one that stays there. -/
def steps (path : String) : List String :=
  names path ++ if path.toList.getLast? = some '/' then ["."] else []

/-- Whether a path starts at the root. -/
def isAbsolute (path : String) : Bool := path.toList.head? = some '/'

/-- Follows names from a location: `.` stays, `..` goes up, at the root to the root itself. -/
def collapse : (here : Location) → List String → Location
  | here, [] => here
  | here, n :: rest =>
    if n = "." then collapse here rest
    else if n = ".." then collapse here.dropLast rest
    else collapse (here ++ [n]) rest

def ofLocation (l : Location) : String := "/" ++ "/".intercalate l

/-- The location of a path, a relative one being taken from `base`. -/
def locate (base : Location) (path : String) : Location :=
  collapse (if isAbsolute path then [] else base) (names path)

/-- A path made absolute and normal, from the directory at an absolute path. -/
def resolve (base path : String) : String := ofLocation (locate (locate [] base) path)

/-- The path of an entry of a directory. A relative directory keeps its leading `..`. -/
def child (directory name : String) : String :=
  if isAbsolute directory then ofLocation (locate [] directory ++ [name])
  else
    let ups := (names directory).foldl (fun (stack : List String) n =>
      if n = "." then stack
      else if n = ".." then
        (if stack.getLast?.all (· = "..") then stack ++ [".."] else stack.dropLast)
      else stack ++ [n]) []
    "/".intercalate (ups ++ [name])

/-- A path taken from a directory at an absolute path. Unlike `resolve` it keeps a slash at the end.
-/
def within (directory path : String) : String :=
  resolve directory path ++ if path.toList.getLast? = some '/' then "/" else ""

/-- The last name of a path. -/
def baseName (path : String) : String := (names path).getLast?.getD ""

/-- The part of the last name from its last full stop on, unless nothing stands before that. -/
def extension (path : String) : String :=
  let base := (baseName path).toList
  let tail := (base.reverse.takeWhile (· != '.')).reverse
  if tail.length + 1 < base.length && base ≠ ['.', '.'] then String.ofList ('.' :: tail) else ""

/-- The path that leads from one location to another. -/
def relative : (source target : Location) → List String
  | a :: source, b :: target =>
    if a = b then relative source target
    else List.replicate (source.length + 1) ".." ++ b :: target
  | source, target => List.replicate source.length ".." ++ target

/-- A file as reports show it: relative to the root directory if the relative path is not empty and
does not start with two full stops, else as it is given. -/
def display (rootDir file : String) : String :=
  let rel := "/".intercalate (relative (locate [] rootDir) (locate [] file))
  if rel = "" || ['.', '.'].isPrefixOf rel.toList then file else rel

end Path

end ApiReport
