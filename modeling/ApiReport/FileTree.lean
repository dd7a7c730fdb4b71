import ApiReport.Path

/-!
# File trees

A file tree maps locations to files, directories and links to other locations. The root is a
directory, and everything else stands in a directory. Setting an entry keeps this, as `put` takes
its conditions as a proof.

Key definitions: `Entry`, `FileTree`, `FileTree.entryAt?`, `FileTree.Takes`, `FileTree.put`.
Key theorems: `FileTree.entryAt?_put`, `FileTree.entryAt?_dropLast`.
-/
namespace ApiReport

/-- What stands at a location. -/
inductive Entry where
  | file (bytes : List UInt8)
  | directory
  | link (target : Location)
  deriving DecidableEq, Repr

namespace Entry

/-- The entry at a location, given the entries other than the root. -/
def find? (entries : List (Location × Entry)) (l : Location) : Option Entry :=
  if l = [] then some .directory else entries.lookup l

theorem mem_of_lookup {entries : List (Location × Entry)} {l : Location} {e : Entry}
    (h : entries.lookup l = some e) : (l, e) ∈ entries := by
  induction entries with
  | nil => simp at h
  | cons x entries ih =>
    rw [List.lookup_cons] at h
    by_cases hx : l = x.1
    · subst hx
      simp only [beq_self_eq_true, Option.some.injEq] at h
      rw [← h]
      exact List.mem_cons_self
    · rw [beq_false_of_ne hx] at h
      exact List.mem_cons_of_mem x (ih h)

theorem lookup_filter {entries : List (Location × Entry)} {p : Location → Bool} {l : Location} :
    (entries.filter fun e => p e.1).lookup l = if p l then entries.lookup l else none := by
  induction entries with
  | nil => simp
  | cons e entries ih =>
    by_cases hp : p e.1
    · rw [List.filter_cons_of_pos (by simpa using hp), List.lookup_cons, List.lookup_cons, ih]
      by_cases hl : l = e.1
      · subst hl; simp [hp]
      · simp [beq_false_of_ne hl]
    · rw [List.filter_cons_of_neg (by simpa using hp), List.lookup_cons, ih]
      by_cases hl : l = e.1
      · subst hl; simp [hp]
      · simp [beq_false_of_ne hl]

end Entry

/-- A file tree. -/
structure FileTree where
  /-- Everything but the root, in no particular order. -/
  entries : List (Location × Entry)
  distinct : (entries.map Prod.fst).Nodup
  named : ∀ e ∈ entries, e.1 ≠ [] ∧ ∀ n ∈ e.1, Path.IsName n
  grounded : ∀ e ∈ entries, Entry.find? entries e.1.dropLast = some .directory

namespace FileTree

/-- The tree of nothing but the root. -/
def empty : FileTree :=
  { entries := [], distinct := by simp, named := by simp, grounded := by simp }

instance : Inhabited FileTree := ⟨empty⟩

def entryAt? (t : FileTree) (l : Location) : Option Entry := Entry.find? t.entries l

@[simp] theorem entryAt?_nil (t : FileTree) : t.entryAt? [] = some .directory := rfl

/-- Whether a tree can take a new entry at a location: it has a name, stands in a directory, and is
no directory yet. -/
def Takes (t : FileTree) (l : Location) : Prop :=
  l ≠ [] ∧ (∀ n ∈ l, Path.IsName n) ∧ t.entryAt? l.dropLast = some .directory ∧
    t.entryAt? l ≠ some .directory

instance (t : FileTree) (l : Location) : Decidable (t.Takes l) :=
  inferInstanceAs (Decidable (_ ∧ _))

/-- The entries of a tree with one of them set. -/
def putEntries (entries : List (Location × Entry)) (l : Location) (e : Entry) :
    List (Location × Entry) :=
  (l, e) :: entries.filter fun x => x.1 ≠ l

theorem find?_putEntries {entries : List (Location × Entry)} {l : Location} (hl : l ≠ [])
    (e : Entry)
    (k : Location) :
    Entry.find? (putEntries entries l e) k = if k = l then some e else Entry.find? entries k := by
  unfold Entry.find? putEntries
  by_cases hk : k = []
  · subst hk; simp [hl.symm]
  · rw [if_neg hk, if_neg hk, List.lookup_cons]
    by_cases h : k = l
    · subst h; simp
    · have := @Entry.lookup_filter entries (fun x => x ≠ l) k
      simp only [beq_false_of_ne h]
      simpa [h] using this

/-- The tree with a file, a directory or a link set at a location that takes it. -/
def put (t : FileTree) (l : Location) (e : Entry) (h : t.Takes l) : FileTree where
  entries := putEntries t.entries l e
  distinct := by
    unfold putEntries
    rw [List.map_cons, List.nodup_cons]
    refine ⟨?_, (t.distinct.sublist (List.filter_sublist.map Prod.fst))⟩
    intro hm
    obtain ⟨x, hx, hxl⟩ := List.mem_map.1 hm
    have := (List.mem_filter.1 hx).2
    simp [hxl] at this
  named := by
    intro x hx
    rcases List.mem_cons.1 hx with rfl | hx
    · exact ⟨h.1, h.2.1⟩
    · exact t.named x (List.mem_filter.1 hx).1
  grounded := by
    intro x hx
    rw [find?_putEntries h.1]
    have hd : ∀ k : Location, Entry.find? t.entries k = some .directory → k ≠ l := by
      intro k hk hkl
      exact h.2.2.2 (hkl ▸ hk)
    rcases List.mem_cons.1 hx with rfl | hx
    · rw [if_neg (hd _ h.2.2.1)]; exact h.2.2.1
    · have hg := t.grounded x (List.mem_filter.1 hx).1
      rw [if_neg (hd _ hg)]; exact hg

/-- Setting an entry changes the tree at its location only. -/
theorem entryAt?_put (t : FileTree) (l : Location) (e : Entry) (h : t.Takes l) (k : Location) :
    (t.put l e h).entryAt? k = if k = l then some e else t.entryAt? k :=
  find?_putEntries h.1 e k

/-- Every entry stands in a directory. -/
theorem entryAt?_dropLast (t : FileTree) {l : Location} (h : (t.entryAt? l).isSome) :
    t.entryAt? l.dropLast = some .directory := by
  by_cases hl : l = []
  · subst hl; rfl
  · obtain ⟨e, he⟩ := Option.isSome_iff_exists.1 h
    have hm : (l, e) ∈ t.entries := by
      unfold entryAt? Entry.find? at he
      rw [if_neg hl] at he
      exact Entry.mem_of_lookup he
    exact t.grounded _ hm

end FileTree

end ApiReport
