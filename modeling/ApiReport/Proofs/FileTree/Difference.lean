import ApiReport.Proofs.FileTree.Listing

/-!
# Trees that differ in one file

Two trees that differ only in one file, in its bytes or in that only one of them has it, are walked
through alike: a walk ends in both of them in the same way, or at that file or the place where it is
missing, or nowhere. So the same paths lead to the file, the same directories are found, and every
path that does not lead to the file is read alike.

Key definitions: `FileTree.DiffersAt`, `FileTree.Found.location`, `FileTree.leadsTo`,
`FileTree.EndsAlike`.
Key theorems: `FileTree.DiffersAt.walk`, `FileTree.DiffersAt.stat_directory_iff`,
`FileTree.DiffersAt.read_eq_ok_iff`, `FileTree.DiffersAt.listing_filter`.
-/
namespace ApiReport.FileTree

variable {t t' : FileTree} {l k here : Location} {links : Nat} {n path : String}
  {rest steps names : List String}

/-- There is nothing at a location but maybe a file. -/
def HoldsFileAtMost (t : FileTree) (l : Location) : Prop :=
  ∀ e, t.entryAt? l = some e → ∃ bytes, e = .file bytes

/-- Trees that differ only in a file: one of them has it, the other one has it as well, maybe with
other bytes, or has nothing in its place. -/
structure DiffersAt (t t' : FileTree) (l : Location) : Prop where
  others : ∀ k, k ≠ l → t'.entryAt? k = t.entryAt? k
  first : t.HoldsFileAtMost l
  second : t'.HoldsFileAtMost l
  present : (t.entryAt? l).isSome ∨ (t'.entryAt? l).isSome

theorem DiffersAt.symm (h : t.DiffersAt t' l) : t'.DiffersAt t l where
  others k hk := (h.others k hk).symm
  first := h.second
  second := h.first
  present := h.present.symm

/-- A file that is put into a tree makes it differ from the tree without it or with an earlier one.
-/
theorem differsAt_put {bytes : List UInt8} (h : t.Takes l) (hl : t.HoldsFileAtMost l) :
    t.DiffersAt (t.put l (.file bytes) h) l where
  others k hk := by rw [entryAt?_put, if_neg hk]
  first := hl
  second e he := by
    rw [entryAt?_put, if_pos rfl] at he
    exact ⟨bytes, (Option.some.inj he).symm⟩
  present := .inr (by rw [entryAt?_put, if_pos rfl]; rfl)

/-! ### Walks -/

/-- Where a walk ends. -/
def Found.location : Found → Location
  | .entry l _ => l
  | .vacant l => l

/-- Whether a path leads to a location: to what stands there, or to the place in its directory. -/
def leadsTo (t : FileTree) (path : String) (l : Location) : Bool :=
  match t.find path with
  | .ok found => found.location = l
  | .error _ => false

/-- Two walks that end in the same way, or both at a location, or both nowhere. -/
inductive EndsAlike (l : Location) : Except Fault Found → Except Fault Found → Prop
  | same {r} : EndsAlike l r r
  | there {found found'} : found.location = l → found'.location = l →
      EndsAlike l (.ok found) (.ok found')
  | nowhere {f f'} : EndsAlike l (.error f) (.error f')

theorem EndsAlike.of_walks {r : Except Fault Found} (h : Walks t links here steps r) :
    EndsAlike l r (t.walk links here steps) := by
  rw [walks_iff.1 h]
  exact .same

/-- A walk whose last step comes to the place of a file ends there. -/
theorem HoldsFileAtMost.endsAlike_last (hl : t.HoldsFileAtMost (here ++ [n])) (links : Nat)
    (h1 : n ≠ ".") (h2 : n ≠ "..") {found : Found} (hfound : found.location = here ++ [n]) :
    EndsAlike (here ++ [n]) (.ok found) (t.walk links here [n]) := by
  cases he : t.entryAt? (here ++ [n]) with
  | none =>
    rw [walks_iff.1 (.vacant h1 h2 he)]
    exact .there hfound rfl
  | some e =>
    obtain ⟨bytes, rfl⟩ := hl e he
    rw [walks_iff.1 (.file h1 h2 he)]
    exact .there hfound rfl

/-- No walk goes on behind the place of a file. -/
theorem HoldsFileAtMost.endsAlike_past (hl : t.HoldsFileAtMost (here ++ [n])) (links : Nat)
    (h1 : n ≠ ".") (h2 : n ≠ "..") (hr : rest ≠ []) (f : Fault) :
    EndsAlike l (.error f) (t.walk links here (n :: rest)) := by
  cases he : t.entryAt? (here ++ [n]) with
  | none =>
    rw [walks_iff.1 (.lost h1 h2 he hr)]
    exact .nowhere
  | some e =>
    obtain ⟨bytes, rfl⟩ := hl e he
    rw [walks_iff.1 (.blocked h1 h2 he hr)]
    exact .nowhere

theorem leadsTo_of_stat {e : Entry} (h : t.stat path = .ok (l, e)) : t.leadsTo path l = true := by
  have hfind := stat_eq_ok.1 h
  rw [← find] at hfind
  rw [leadsTo, hfind]
  exact decide_eq_true rfl

theorem HoldsFileAtMost.leadsTo_below (hfile : t.HoldsFileAtMost l) (hp : Path.IsNormal path)
    (hs : t.stat path = .ok (k, .directory)) (hl : l = k ++ names)
    (hpresent : (t.entryAt? l).isSome) : t.leadsTo (names.foldl Path.child path) l = true := by
  obtain ⟨d, hd, rfl⟩ := hp
  obtain ⟨e, he⟩ := Option.isSome_iff_exists.1 hpresent
  obtain ⟨bytes, rfl⟩ := hfile e he
  subst hl
  rw [Path.foldl_child_ofLocation hd (isLocation_of_append he)]
  exact leadsTo_of_stat (stat_below hd hs he (by simp))

namespace DiffersAt

/-- What is not a file is the same in both trees. -/
theorem entryAt?_eq {e : Entry} (h : t.DiffersAt t' l) (he : t.entryAt? k = some e)
    (hfile : ∀ bytes, e ≠ .file bytes) : t'.entryAt? k = some e := by
  have hk : k ≠ l := by
    rintro rfl
    obtain ⟨bytes, rfl⟩ := h.first e he
    exact hfile bytes rfl
  rw [h.others k hk, he]

/-- By induction on the course of the walk in one of the trees. The courses part only where the file
is reached. -/
theorem walk (h : t.DiffersAt t' l) (links : Nat) (here : Location) (steps : List String) :
    EndsAlike l (t.walk links here steps) (t'.walk links here steps) := by
  have hw := walks_walk t links here steps
  generalize t.walk links here steps = r at hw
  induction hw with
  | arrive => exact .of_walks .arrive
  | stay _ ih =>
    rw [walk_cons, if_pos rfl]
    exact ih
  | up _ ih =>
    rw [walk_cons, if_neg (by decide), if_pos rfl]
    exact ih
  | @vacant links here n h1 h2 hn =>
    by_cases hl : here ++ [n] = l
    · subst hl
      exact h.second.endsAlike_last links h1 h2 rfl
    · exact .of_walks (.vacant h1 h2 ((h.others _ hl).trans hn))
  | @lost links here n rest h1 h2 hn hr =>
    by_cases hl : here ++ [n] = l
    · subst hl
      exact h.second.endsAlike_past links h1 h2 hr _
    · exact .of_walks (.lost h1 h2 ((h.others _ hl).trans hn) hr)
  | down h1 h2 hd _ ih =>
    rw [walk_cons, if_neg h1, if_neg h2, h.entryAt?_eq hd (by simp)]
    exact ih
  | @file links here n bytes h1 h2 hf =>
    by_cases hl : here ++ [n] = l
    · subst hl
      exact h.second.endsAlike_last links h1 h2 rfl
    · exact .of_walks (.file h1 h2 ((h.others _ hl).trans hf))
  | @blocked links here n rest bytes h1 h2 hf hr =>
    by_cases hl : here ++ [n] = l
    · subst hl
      exact h.second.endsAlike_past links h1 h2 hr _
    · exact .of_walks (.blocked h1 h2 ((h.others _ hl).trans hf) hr)
  | spent h1 h2 ht => exact .of_walks (.spent h1 h2 (h.entryAt?_eq ht (by simp)))
  | follow h1 h2 ht _ ih =>
    rw [walk_cons, if_neg h1, if_neg h2, h.entryAt?_eq ht (by simp)]
    exact ih

/-! ### What paths lead to -/

theorem find (h : t.DiffersAt t' l) (path : String) : EndsAlike l (t.find path) (t'.find path) :=
  h.walk maxLinks [] (Path.steps path)

/-- The same paths lead to the file in both trees. -/
theorem leadsTo_eq (h : t.DiffersAt t' l) (path : String) : t'.leadsTo path l = t.leadsTo path l := by
  have hends := h.find path
  unfold leadsTo
  generalize t.find path = r at hends
  generalize t'.find path = r' at hends
  cases hends with
  | same => rfl
  | there hl hl' =>
    dsimp only
    rw [hl, hl']
  | nowhere => rfl

/-- The same paths lead to directories. -/
theorem stat_directory (h : t.DiffersAt t' l) (hs : t.stat path = .ok (k, .directory)) :
    t'.stat path = .ok (k, .directory) := by
  have hw := stat_eq_ok.1 hs
  have hends := h.walk maxLinks [] (Path.steps path)
  have hk : k ≠ l := by
    rintro rfl
    obtain ⟨bytes, hfile⟩ := h.first _ (entryAt?_of_walk t.entryAt?_nil hw)
    cases hfile
  rw [hw] at hends
  generalize hr : t'.walk maxLinks [] (Path.steps path) = r at hends
  cases hends with
  | same => exact stat_eq_ok.2 hr
  | there hl => exact (hk hl).elim

theorem stat_directory_iff (h : t.DiffersAt t' l) :
    t'.stat path = .ok (k, .directory) ↔ t.stat path = .ok (k, .directory) :=
  ⟨h.symm.stat_directory, h.stat_directory⟩

theorem isDirectory_eq (h : t.DiffersAt t' l) (path : String) :
    t'.isDirectory path = t.isDirectory path := by
  rw [Bool.eq_iff_iff, isDirectory_iff, isDirectory_iff]
  simp only [h.stat_directory_iff]

/-- A path that does not lead to the file is read alike. -/
theorem read_eq_ok (h : t.DiffersAt t' l) (hpath : t.leadsTo path l = false) {bytes : List UInt8}
    (hread : t.read path = .ok bytes) : t'.read path = .ok bytes := by
  have hends := h.find path
  unfold leadsTo at hpath
  unfold FileTree.read stat at hread ⊢
  generalize t.find path = r at hends hpath hread
  generalize t'.find path = r' at hends
  cases hends with
  | same => exact hread
  | there hl => simp [hl] at hpath
  | nowhere => cases hread

theorem read_eq_ok_iff (h : t.DiffersAt t' l) (hpath : t.leadsTo path l = false)
    {bytes : List UInt8} : t'.read path = .ok bytes ↔ t.read path = .ok bytes :=
  ⟨h.symm.read_eq_ok ((h.leadsTo_eq path).trans hpath), h.read_eq_ok hpath⟩

/-! ### What is listed -/

/-- From a normal path, a search leads to the file by the path that it gives to it. -/
theorem leadsTo_below (h : t.DiffersAt t' l) (hp : Path.IsNormal path)
    (hs : t.stat path = .ok (k, .directory)) (hl : l = k ++ names) :
    t.leadsTo (names.foldl Path.child path) l = true := by
  -- one of the trees has the file
  rcases h.present with hfile | hfile
  · exact h.first.leadsTo_below hp hs hl hfile
  · rw [← h.leadsTo_eq]
    exact h.second.leadsTo_below hp (h.stat_directory hs) hl hfile

/-- The same files are listed in the same order, if the file is left out. -/
theorem listing_filter (h : t.DiffersAt t' l) (k : Location) (ending : String)
    {p : List String → Bool} (hp : ∀ names, names ≠ [] → p names = true → k ++ names ≠ l) :
    (t'.listing k ending).filter p = (t.listing k ending).filter p := by
  refine listing_filter_congr fun names hnames he => ?_
  rw [h.others _ (hp names (ne_nil_of_endsIn he) hnames)]

end DiffersAt

end ApiReport.FileTree
