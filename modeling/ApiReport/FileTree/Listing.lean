import ApiReport.FileTree.Walk
import ApiReport.Text.Units

/-!
# Listing files

The files below a directory whose names end in a given way, in the order of a walk that visits the
entries of each directory by name and goes down into a directory before it visits the next entry.
Links inside of the directory are neither followed nor listed.

Key definitions: `FileTree.entryNames`, `FileTree.listing`, `FileTree.sources`.
-/
namespace ApiReport.FileTree

/-- The names that lead from a location to an entry strictly below it. -/
def below? (l k : Location) : Option (List String) :=
  if l.isPrefixOf k && l.length < k.length then some (k.drop l.length) else none

/-- Whether the last name ends in a given way. -/
def endsIn (ending : String) (names : List String) : Bool :=
  names.getLast?.any fun n => ending.toList.isSuffixOf n.toList

/-- The name under which an entry stands in a directory, the locations of both being given. -/
def nameIn? (l k : Location) : Option String :=
  match below? l k with
  | some [n] => some n
  | _ => none

/-- The names in a directory, in ascending order. -/
def entryNames (t : FileTree) (l : Location) : List String :=
  Text.sortByKey id (t.entries.filterMap fun e => nameIn? l e.1)

/-- The greatest number of names that lead to an entry. -/
def depth (t : FileTree) : Nat := ((t.entries.map Prod.fst).map List.length).foldr max 0

theorem length_le_max {k : Location} {ks : List Location} (h : k ∈ ks) :
    k.length ≤ (ks.map List.length).foldr max 0 := by
  induction ks with
  | nil => cases h
  | cons x ks ih =>
    rw [List.map_cons, List.foldr_cons]
    rcases List.mem_cons.1 h with rfl | h
    · exact Nat.le_max_left _ _
    · exact Nat.le_trans (ih h) (Nat.le_max_right _ _)

/-- A directory with entries is not at the deepest location. -/
theorem length_lt_depth {t : FileTree} {l : Location} {n : String} (h : n ∈ t.entryNames l) :
    l.length < t.depth := by
  obtain ⟨e, he, hn⟩ := List.mem_filterMap.1 ((Text.sortByKey_perm _ _).mem_iff.1 h)
  have hlength : e.1.length ≤ t.depth := length_le_max (List.mem_map_of_mem he)
  unfold nameIn? below? at hn
  split at hn
  · next hbelow =>
    split at hbelow
    · next hlt =>
      rw [Bool.and_eq_true, decide_eq_true_eq] at hlt
      exact Nat.lt_of_lt_of_le hlt.2 hlength
    · cases hbelow
  · cases hn

/-- What is left of the depth below a location is less below what stands in it. -/
theorem depth_sub_lt {t : FileTree} {l : Location} {n : String} (h : n ∈ t.entryNames l) :
    t.depth - (l ++ [n]).length < t.depth - l.length := by
  have := length_lt_depth h
  rw [List.length_append, List.length_singleton]
  omega

/-- The files strictly below a location whose names end in a given way, each by the names that lead
to it, in the order of a walk. -/
def listing (t : FileTree) (l : Location) (ending : String) : List (List String) :=
  (t.entryNames l).attach.flatMap fun ⟨n, _⟩ =>
    match t.entryAt? (l ++ [n]) with
    | some .directory => (listing t (l ++ [n]) ending).map (n :: ·)
    | some (.file _) => if endsIn ending [n] then [[n]] else []
    | _ => []
termination_by t.depth - l.length
decreasing_by exact depth_sub_lt ‹n ∈ t.entryNames l›

/-- The paths of the files below the directory that a path leads to. -/
def sources (t : FileTree) (directory ending : String) : Except Fault (List String) :=
  match t.stat directory with
  | .ok (l, .directory) =>
    .ok ((t.listing l ending).map fun names => names.foldl Path.child directory)
  | .ok _ => .error .notDirectory
  | .error f => .error f

end ApiReport.FileTree
