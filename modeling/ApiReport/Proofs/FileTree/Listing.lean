import ApiReport.FileTree.Listing
import ApiReport.Proofs.FileTree.Write
import ApiReport.Proofs.Lookup
import ApiReport.Proofs.Text.Order
import Mathlib.Data.List.Nodup

/-!
# What is listed

The listing of a directory holds every file below it whose name ends in the given way, once. A walk
takes the names in each directory in their order, so the listing is strictly ascending in the order
that compares the names on the way to each file one after another, and depends only on which files
there are. From a normal path every listed file can be read. A file that is written does not show in
any listing unless its own name ends that way, and neither do the directories that are made for it.

Key definitions: `FileTree.namesLE`, `FileTree.visit`, `FileTree.IsListed`, `FileTree.listed`.
Key theorems: `FileTree.isOrder_namesLE`, `FileTree.listing_eq_flatMap`, `FileTree.mem_listing`,
`FileTree.pairwise_listing`, `FileTree.mem_listed`, `FileTree.IsListed.stat`,
`FileTree.Wrote.listing`, `FileTree.Wrote.listed`.
-/
namespace ApiReport

namespace FileTree

variable {t t' : FileTree} {l k d : Location} {n : String} {names : List String}
  {ending path : String}

/-! ### The order of a walk -/

/-- The order of a walk: names are compared one after another. -/
def namesLE : List String → List String → Bool
  | [], _ => true
  | _ :: _, [] => false
  | a :: as, b :: bs => if a = b then namesLE as bs else Text.unitsLE a b

theorem isLex_namesLE : Text.IsLex Text.unitsLE namesLE where
  nil_left _ := by rw [namesLE]
  nil_right _ _ := by rw [namesLE]
  cons_self _ _ _ := by rw [namesLE, if_pos rfl]
  cons_cons _ _ h := by rw [namesLE, if_neg h]

theorem isOrder_namesLE : Text.IsOrder namesLE := isLex_namesLE.isOrder Text.isOrder_unitsLE

/-! ### Names -/

theorem endsIn_append (l : Location) (hne : names ≠ []) :
    endsIn ending (l ++ names) = endsIn ending names := by
  rw [endsIn, List.getLast?_append_of_ne_nil l hne, endsIn]

theorem ne_of_endsIn (hk : endsIn ending k = true) (hl : endsIn ending l = false) : k ≠ l := by
  rintro rfl
  rw [hl] at hk
  cases hk

theorem ne_nil_of_endsIn (h : endsIn ending names = true) : names ≠ [] := by
  rintro rfl
  cases h

theorem isLocation_of_append {e : Entry} (h : t.entryAt? (l ++ names) = some e) :
    Path.IsLocation names :=
  fun n hn => isLocation_of_entryAt? h n (List.mem_append_right l hn)

/-! ### The files of a directory -/

theorem mem_entries {e : Entry} : (k, e) ∈ t.entries ↔ k ≠ [] ∧ t.entryAt? k = some e := by
  unfold entryAt? Entry.find?
  constructor
  · intro h
    have hk := (t.named _ h).1
    exact ⟨hk, by rw [if_neg hk, lookup_of_mem t.distinct h]⟩
  · rintro ⟨hk, h⟩
    rw [if_neg hk] at h
    exact Entry.mem_of_lookup h

theorem below?_eq_some : below? l k = some names ↔ k = l ++ names ∧ names ≠ [] := by
  unfold below?
  simp only [Bool.and_eq_true, List.isPrefixOf_iff_prefix, decide_eq_true_eq]
  constructor
  · intro h
    split at h
    · next hp =>
      obtain ⟨⟨r, rfl⟩, hlt⟩ := hp
      obtain rfl : r = names := by simpa using h
      refine ⟨rfl, ?_⟩
      rintro rfl
      simp at hlt
    · cases h
  · rintro ⟨rfl, hne⟩
    have := List.length_pos_iff.2 hne
    rw [if_pos ⟨List.prefix_append l names, by rw [List.length_append]; omega⟩]
    simp

/-! ### The names in a directory -/

theorem nameIn?_eq_some : nameIn? l k = some n ↔ k = l ++ [n] := by
  unfold nameIn?
  constructor
  · intro h
    split at h
    · next hbelow =>
      cases h
      exact (below?_eq_some.1 hbelow).1
    · cases h
  · rintro rfl
    rw [below?_eq_some.2 ⟨rfl, List.cons_ne_nil n []⟩]

theorem mem_entryNames : n ∈ t.entryNames l ↔ (t.entryAt? (l ++ [n])).isSome := by
  rw [entryNames, (Text.sortByKey_perm _ _).mem_iff, List.mem_filterMap,
    Option.isSome_iff_exists]
  simp only [Prod.exists, nameIn?_eq_some]
  constructor
  · rintro ⟨k, e, hm, rfl⟩
    exact ⟨e, (mem_entries.1 hm).2⟩
  · rintro ⟨e, he⟩
    exact ⟨l ++ [n], e, mem_entries.2 ⟨by simp, he⟩, rfl⟩

theorem pairwise_entryNames (t : FileTree) (l : Location) :
    (t.entryNames l).Pairwise fun a b => Text.UnitsLT a b ∧ a ≠ b := by
  have hnodup : (t.entries.filterMap fun e => nameIn? l e.1).Nodup := by
    refine List.pairwise_filterMap.2 ((List.pairwise_map.1 t.distinct).imp ?_)
    rintro a b hne n hn _ hn' rfl
    exact hne ((nameIn?_eq_some.1 hn).trans (nameIn?_eq_some.1 hn').symm)
  refine (Text.sortByKey_pairwise (by simpa using hnodup)).and ?_
  exact (Text.sortByKey_perm _ _).nodup_iff.2 hnodup

/-- What stands further below is reached through directories. -/
theorem entryAt?_first {e : Entry} {rest : List String} (hne : rest ≠ [])
    (h : t.entryAt? (l ++ n :: rest) = some e) : t.entryAt? (l ++ [n]) = some .directory := by
  have hprefix : l ++ [n] <+: l ++ n :: rest := ⟨rest, by simp⟩
  refine entryAt?_of_below hprefix ?_ (by rw [h]; rfl)
  simpa using hne.symm

/-! ### The walk -/

/-- What a walk notes at a name in a directory. -/
def visit (t : FileTree) (l : Location) (ending n : String) : List (List String) :=
  match t.entryAt? (l ++ [n]) with
  | some .directory => (t.listing (l ++ [n]) ending).map (n :: ·)
  | some (.file _) => if endsIn ending [n] then [[n]] else []
  | _ => []

/-- **A listing is what a walk finds.** It goes through the names in a directory, one after the
other, and into each directory before the next name. -/
theorem listing_eq_flatMap (t : FileTree) (l : Location) (ending : String) :
    t.listing l ending = (t.entryNames l).flatMap (t.visit l ending) := by
  conv_rhs => rw [← List.attach_map_subtype_val (t.entryNames l), List.flatMap_map]
  rw [listing]
  rfl

theorem mem_visit : names ∈ t.visit l ending n ↔
    (names = [n] ∧ endsIn ending [n] = true ∧
      ∃ bytes, t.entryAt? (l ++ [n]) = some (.file bytes)) ∨
    (t.entryAt? (l ++ [n]) = some .directory ∧
      ∃ rest ∈ t.listing (l ++ [n]) ending, names = n :: rest) := by
  unfold visit
  cases t.entryAt? (l ++ [n]) with
  | none => simp
  | some e =>
    cases e with
    | directory =>
      dsimp only
      rw [List.mem_map]
      constructor
      · rintro ⟨rest, hrest, rfl⟩
        exact .inr ⟨rfl, rest, hrest, rfl⟩
      · rintro (⟨-, -, _, hb⟩ | ⟨-, rest, hrest, rfl⟩)
        · cases hb
        · exact ⟨rest, hrest, rfl⟩
    | file bytes =>
      dsimp only
      by_cases hend : endsIn ending [n] = true
      · rw [if_pos hend, List.mem_singleton]
        exact ⟨fun h => .inl ⟨h, hend, bytes, rfl⟩, fun h => h.elim And.left nofun⟩
      · rw [if_neg hend]
        exact ⟨nofun, fun h => h.elim (fun h => (hend h.2.1).elim) nofun⟩
    | link => simp

/-- By induction on the names, the first of which is one that the walk visits. -/
theorem mem_listing : names ∈ t.listing l ending ↔
    names ≠ [] ∧ endsIn ending names = true ∧
      ∃ bytes, t.entryAt? (l ++ names) = some (.file bytes) := by
  induction names generalizing l with
  | nil =>
    rw [listing_eq_flatMap, List.mem_flatMap]
    exact iff_of_false (fun ⟨_, _, hvisit⟩ => by simp [mem_visit] at hvisit) fun h => h.1 rfl
  | cons n rest ih =>
    rw [listing_eq_flatMap, List.mem_flatMap]
    constructor
    · rintro ⟨m, -, hvisit⟩
      refine ⟨List.cons_ne_nil n rest, ?_⟩
      rcases mem_visit.1 hvisit with ⟨heq, hend, hb⟩ | ⟨-, rest', hrest, heq⟩
      · rw [heq]
        exact ⟨hend, hb⟩
      · cases heq
        obtain ⟨hne, hend, bytes, hb⟩ := ih.1 hrest
        refine ⟨(endsIn_append [n] hne).trans hend, bytes, ?_⟩
        rwa [List.append_assoc, List.singleton_append] at hb
    · rintro ⟨-, hend, bytes, hb⟩
      refine ⟨n, ?_⟩
      by_cases hne : rest = []
      · subst hne
        exact ⟨mem_entryNames.2 (by rw [hb]; rfl), mem_visit.2 (.inl ⟨rfl, hend, bytes, hb⟩)⟩
      · have hdir := entryAt?_first hne hb
        refine ⟨mem_entryNames.2 (by rw [hdir]; rfl), mem_visit.2 (.inr ⟨hdir, rest, ?_, rfl⟩)⟩
        refine ih.2 ⟨hne, (endsIn_append [n] hne).symm.trans hend, bytes, ?_⟩
        rwa [List.append_assoc, List.singleton_append]

/-- What a walk notes at a name is strictly ascending if what it notes below it is. -/
theorem pairwise_visit (h : (t.listing (l ++ [n]) ending).Pairwise fun a b =>
      namesLE a b = true ∧ a ≠ b) :
    (t.visit l ending n).Pairwise fun a b => namesLE a b = true ∧ a ≠ b := by
  unfold visit
  split
  · refine List.pairwise_map.2 (h.imp ?_)
    rintro a b ⟨hle, hne⟩
    refine ⟨?_, fun heq => hne (List.cons.inj heq).2⟩
    rwa [isLex_namesLE.cons_self]
  · split
    · exact List.pairwise_singleton _ _
    · exact .nil
  · exact .nil

/-- A listing is strictly ascending: what is noted at one name begins with it. -/
theorem pairwise_listing (t : FileTree) (l : Location) (ending : String) :
    (t.listing l ending).Pairwise fun a b => namesLE a b = true ∧ a ≠ b := by
  have hfirst : ∀ {n names}, names ∈ t.visit l ending n → ∃ rest, names = n :: rest := by
    intro n names h
    rcases mem_visit.1 h with ⟨rfl, -⟩ | ⟨-, rest, -, rfl⟩
    · exact ⟨[], rfl⟩
    · exact ⟨rest, rfl⟩
  rw [listing_eq_flatMap]
  refine List.pairwise_flatMap.2
    ⟨fun n hn => pairwise_visit (pairwise_listing t (l ++ [n]) ending), ?_⟩
  refine (pairwise_entryNames t l).imp ?_
  rintro n m ⟨hlt, hne⟩ a ha b hb
  obtain ⟨as, rfl⟩ := hfirst ha
  obtain ⟨bs, rfl⟩ := hfirst hb
  refine ⟨?_, fun heq => hne (List.cons.inj heq).1⟩
  rw [isLex_namesLE.cons_cons as bs hne]
  exact Text.unitsLE_iff.2 (.inr hlt)
termination_by t.depth - l.length
decreasing_by exact depth_sub_lt hn

theorem nodup_listing (t : FileTree) (l : Location) (ending : String) :
    (t.listing l ending).Nodup :=
  (pairwise_listing t l ending).imp And.right

/-- Any part of a listing depends only on the files of that part. -/
theorem listing_filter_congr {p : List String → Bool}
    (h : ∀ names, p names = true → endsIn ending names = true →
      ((∃ bytes, t.entryAt? (l ++ names) = some (.file bytes)) ↔
        ∃ bytes, t'.entryAt? (k ++ names) = some (.file bytes))) :
    (t.listing l ending).filter p = (t'.listing k ending).filter p := by
  refine List.Perm.eq_of_pairwise (fun a b _ _ hab hba => ?_)
    ((pairwise_listing t l ending).filter p) ((pairwise_listing t' k ending).filter p) ?_
  · exact isOrder_namesLE.antisymm hab.1 hba.1
  · refine (List.perm_ext_iff_of_nodup ((nodup_listing t l ending).filter p)
      ((nodup_listing t' k ending).filter p)).2 fun names => ?_
    simp only [List.mem_filter, mem_listing]
    constructor
    · rintro ⟨⟨hne, he, hf⟩, hp⟩
      exact ⟨⟨hne, he, (h names hp he).1 hf⟩, hp⟩
    · rintro ⟨⟨hne, he, hf⟩, hp⟩
      exact ⟨⟨hne, he, (h names hp he).2 hf⟩, hp⟩

/-- A listing depends only on the files below its directory whose names end in the given way. -/
theorem listing_congr
    (h : ∀ names, endsIn ending names = true →
      ((∃ bytes, t.entryAt? (l ++ names) = some (.file bytes)) ↔
        ∃ bytes, t'.entryAt? (k ++ names) = some (.file bytes))) :
    t.listing l ending = t'.listing k ending := by
  have hall := listing_filter_congr (p := fun _ => true) fun names _ => h names
  rwa [List.filter_true, List.filter_true] at hall

/-- Where nothing stands, nothing is listed. -/
theorem listing_eq_nil (h : t.entryAt? l = none) : t.listing l ending = [] := by
  refine List.eq_nil_iff_forall_not_mem.2 fun names hm => ?_
  obtain ⟨-, -, bytes, hb⟩ := mem_listing.1 hm
  rw [entryAt?_eq_none_of_above (List.prefix_append l names) h] at hb
  cases hb

/-! ### The paths of files -/

theorem isDirectory_iff : t.isDirectory path = true ↔
    path ≠ "" ∧ ∃ l, t.stat path = .ok (l, .directory) := by
  unfold isDirectory
  constructor
  · intro h
    split at h
    · next l hs => exact ⟨by simpa using h, l, hs⟩
    · cases h
  · rintro ⟨hp, l, hs⟩
    rw [hs]
    simpa using hp

/-- The path of a file below the directory that a path leads to, whose name ends in a given way. -/
def IsListed (t : FileTree) (ending directory file : String) : Prop :=
  ∃ l names bytes, t.stat directory = .ok (l, .directory) ∧ names ≠ [] ∧
    endsIn ending names = true ∧ t.entryAt? (l ++ names) = some (.file bytes) ∧
    file = names.foldl Path.child directory

/-- The paths of the files below the directory that a path leads to; none if it leads to no
directory. -/
def listed (t : FileTree) (ending directory : String) : List String :=
  match t.stat directory with
  | .ok (l, .directory) => (t.listing l ending).map fun names => names.foldl Path.child directory
  | _ => []

/-- A directory can be listed. -/
theorem sources_of_isDirectory (h : t.isDirectory path = true) :
    t.sources path ending = .ok (t.listed ending path) := by
  obtain ⟨-, l, hs⟩ := isDirectory_iff.1 h
  rw [sources, listed, hs]

theorem listed_of_stat (h : t.stat path = .ok (l, .directory)) :
    t.listed ending path =
      (t.listing l ending).map fun names => names.foldl Path.child path := by
  rw [listed, h]

theorem listed_eq_nil (h : ∀ l, t.stat path ≠ .ok (l, .directory)) : t.listed ending path = [] := by
  unfold listed
  split
  · next l hs => exact absurd hs (h l)
  · rfl

/-- Only directories have to be looked into. -/
theorem listed_of_isDirectory (hp : path ≠ "") :
    (if t.isDirectory path = true then t.listed ending path else []) = t.listed ending path := by
  by_cases hd : t.isDirectory path = true
  · rw [if_pos hd]
  · rw [if_neg hd, listed_eq_nil fun l hs => hd (isDirectory_iff.2 ⟨hp, l, hs⟩)]

theorem mem_listed {file : String} :
    file ∈ t.listed ending path ↔ t.IsListed ending path file := by
  constructor
  · intro h
    by_cases hs : ∃ l, t.stat path = .ok (l, .directory)
    · obtain ⟨l, hs⟩ := hs
      rw [listed_of_stat hs] at h
      obtain ⟨names, hm, rfl⟩ := List.mem_map.1 h
      obtain ⟨hne, he, bytes, hb⟩ := mem_listing.1 hm
      exact ⟨l, names, bytes, hs, hne, he, hb, rfl⟩
    · rw [listed_eq_nil fun l hl => hs ⟨l, hl⟩] at h
      cases h
  · rintro ⟨l, names, bytes, hs, hne, he, hb, rfl⟩
    rw [listed_of_stat hs]
    exact List.mem_map.2 ⟨names, mem_listing.2 ⟨hne, he, bytes, hb⟩, rfl⟩

theorem stat_eq_ok {e : Entry} :
    t.stat path = .ok (k, e) ↔ t.walk maxLinks [] (Path.steps path) = .ok (.entry k e) := by
  unfold stat find
  cases t.walk maxLinks [] (Path.steps path) with
  | error f => simp
  | ok found => cases found <;> simp

/-- From a directory at a normal path, every file and every directory below it is reached. -/
theorem stat_below {e : Entry} (hd : Path.IsLocation d)
    (h : t.stat (Path.ofLocation d) = .ok (l, .directory))
    (he : t.entryAt? (l ++ names) = some e) (hlink : ∀ target, e ≠ .link target) :
    t.stat (Path.ofLocation (d ++ names)) = .ok (l ++ names, e) := by
  have hn : Path.IsLocation names := isLocation_of_append he
  have hw : t.walk maxLinks [] d = .ok (.entry l .directory) := by
    have := stat_eq_ok.1 h
    rwa [← find, find_ofLocation t hd] at this
  obtain ⟨left, -, happ⟩ := walk_append hw
  rw [stat, find_ofLocation t (hd.append hn), happ,
    walk_down (entryAt?_of_walk t.entryAt?_nil hw) hn he hlink]

/-- Every file that is listed from a normal path is there. -/
theorem IsListed.stat {file : String} (h : t.IsListed ending path file) (hp : Path.IsNormal path) :
    ∃ k bytes, t.stat file = .ok (k, .file bytes) ∧ endsIn ending k = true := by
  obtain ⟨d, hd, rfl⟩ := hp
  obtain ⟨l, names, bytes, hs, hne, he, hb, rfl⟩ := h
  have hn : Path.IsLocation names := isLocation_of_append hb
  rw [Path.foldl_child_ofLocation hd hn]
  refine ⟨l ++ names, bytes, stat_below hd hs hb (by simp), ?_⟩
  rw [endsIn_append l hne, he]

/-! ### After a write -/

namespace Wrote

variable {bytes : List UInt8} {directory : String}

/-- Apart from the file that has been written, there are the same files as before. -/
theorem file_iff (w : t.Wrote t' path bytes l d) (hk : k ≠ l) (old : List UInt8) :
    t'.entryAt? k = some (.file old) ↔ t.entryAt? k = some (.file old) := by
  rw [w.entryAt?, if_neg hk]
  constructor
  · intro h
    split at h
    · cases h
    · exact h
  · intro h
    rw [if_neg (by simp [h]), h]

/-- No listing shows that a file has been written whose own name does not end in the given way. -/
theorem listing (w : t.Wrote t' path bytes l d) (hl : endsIn ending l = false) (k : Location) :
    t'.listing k ending = t.listing k ending := by
  refine listing_congr fun names he => ?_
  have hk : endsIn ending (k ++ names) = true := by
    rw [endsIn_append k (ne_nil_of_endsIn he), he]
  have hne : k ++ names ≠ l := ne_of_endsIn hk hl
  exact exists_congr fun old => w.file_iff hne old

theorem stat_of_ne (w : t.Wrote t' path bytes l d) {file : String} {old : List UInt8}
    (h : t.stat file = .ok (k, .file old)) (hk : k ≠ l) : t'.stat file = .ok (k, .file old) := by
  obtain ⟨f, hw, -⟩ := w.grown.walk (stat_eq_ok.1 h)
  have hf := entryAt?_of_walk t'.entryAt?_nil hw
  have hold := entryAt?_of_walk t.entryAt?_nil (stat_eq_ok.1 h)
  obtain rfl := Option.some.inj (hf.symm.trans ((w.file_iff hk old).2 hold))
  exact stat_eq_ok.2 hw

theorem stat_directory (w : t.Wrote t' path bytes l d)
    (h : t.stat directory = .ok (k, .directory)) : t'.stat directory = .ok (k, .directory) := by
  obtain ⟨f, hw, hf⟩ := w.grown.walk (stat_eq_ok.1 h)
  rw [Entry.Like.directory_iff.1 hf] at hw
  exact stat_eq_ok.2 hw

theorem isDirectory (w : t.Wrote t' path bytes l d) (h : t.isDirectory directory = true) :
    t'.isDirectory directory = true := by
  obtain ⟨hp, k, hs⟩ := isDirectory_iff.1 h
  exact isDirectory_iff.2 ⟨hp, k, w.stat_directory hs⟩

/-- A normal path that leads to a directory led there before, or to nothing. -/
theorem stat_cases (w : t.Wrote t' path bytes l d) (hlinks : t.LinksAreNormal)
    (hp : Path.IsNormal directory) (h : t'.stat directory = .ok (k, .directory)) :
    t.stat directory = .ok (k, .directory) ∨ t.entryAt? k = none := by
  obtain ⟨r, hr, rfl⟩ := hp
  have hw := stat_eq_ok.1 h
  rw [← find, find_ofLocation t' hr] at hw
  refine (w.grown.walk_cases hlinks hr hw).imp_left ?_
  rintro ⟨f, hf⟩
  obtain ⟨f', hw', hlike⟩ := w.grown.walk hf
  have hf' : f' = .directory := by simpa using hw'.symm.trans hw
  subst hf'
  rw [stat, find_ofLocation t hr, hf, Entry.Like.iff_directory.1 hlike]

/-- What is listed is the same as before. Directories that have been made hold nothing to list. -/
theorem listed (w : t.Wrote t' path bytes l d) (hlinks : t.LinksAreNormal)
    (hl : endsIn ending l = false) (hp : Path.IsNormal directory) :
    t'.listed ending directory = t.listed ending directory := by
  by_cases hold : ∃ k, t.stat directory = .ok (k, .directory)
  · obtain ⟨k, hs⟩ := hold
    rw [listed_of_stat hs, listed_of_stat (w.stat_directory hs), w.listing hl]
  · rw [listed_eq_nil fun k hs => hold ⟨k, hs⟩]
    by_cases hnew : ∃ k, t'.stat directory = .ok (k, .directory)
    · obtain ⟨k, hs⟩ := hnew
      have hk : t.entryAt? k = none := (w.stat_cases hlinks hp hs).resolve_left fun h => hold ⟨k, h⟩
      rw [listed_of_stat hs, w.listing hl, listing_eq_nil hk, List.map_nil]
    · exact listed_eq_nil fun k hs => hnew ⟨k, hs⟩

end Wrote

end FileTree

end ApiReport
