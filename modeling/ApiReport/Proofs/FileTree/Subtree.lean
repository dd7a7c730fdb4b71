import ApiReport.Proofs.FileTree.Reach
import Mathlib.Data.List.Lex

/-!
# Listings and the directories below

The listing of a directory is what a walk finds that takes the names in the directory in their
order, passes over links, notes the files and goes down into the directories before the next name.
So the listing of a directory further below stands in it as one piece, and that although the walk
does not visit paths in the order of their texts: a directory `a` comes before a file `a.php`, and
the text `a/x.php` behind `a.php`.

Key definitions: `FileTree.Descends`, `FileTree.HasSubdirectory`.
Key theorems: `FileTree.Descends.exists_names`, `FileTree.listed_descends`,
`FileTree.sources_walk`.
-/
namespace ApiReport.FileTree

variable {t : FileTree} {l k d : Location} {n : String} {names : List String}
  {ending directory file path s : String}

/-! ### The order of a listing -/

theorem lex_of_namesLE : ∀ {as bs : List String}, namesLE as bs = true →
    as = bs ∨ List.Lex Text.UnitsLT as bs
  | [], [], _ => .inl rfl
  | [], b :: bs, _ => .inr .nil
  | a :: as, [], h => by
    rw [isLex_namesLE.nil_right] at h
    cases h
  | a :: as, b :: bs, h => by
    by_cases hab : a = b
    · subst hab
      rw [isLex_namesLE.cons_self] at h
      exact (lex_of_namesLE h).imp (congrArg (a :: ·)) .cons
    · rw [isLex_namesLE.cons_cons as bs hab, Text.unitsLE_iff] at h
      exact .inr (.rel (h.resolve_left hab))

/-! ### Directories further below -/

/-- A directory is reached from a directory, the paths of both being given. -/
inductive Descends (t : FileTree) : Location → String → Location → String → Prop
  | here {l : Location} {path : String} : Descends t l path l path
  | down {l k : Location} {path n s : String} : t.entryAt? (l ++ [n]) = some .directory →
      Descends t (l ++ [n]) (Path.child path n) k s → Descends t l path k s

/-- A directory that is reached from the one that a path leads to. -/
def HasSubdirectory (t : FileTree) (directory s : String) : Prop :=
  ∃ l k, t.stat directory = .ok (l, .directory) ∧ t.Descends l directory k s

/-- The listing of a directory further below is a piece of the listing. By induction on the way
down, each step of which goes through one name of the walk. -/
theorem Descends.exists_names (h : t.Descends l path k s) (hl : t.entryAt? l = some .directory)
    (ending : String) : ∃ names before after, t.entryAt? (l ++ names) = some .directory ∧
      k = l ++ names ∧ s = names.foldl Path.child path ∧
      t.listing l ending =
        before ++ ((t.listing (l ++ names) ending).map (names ++ ·) ++ after) := by
  induction h with
  | here => exact ⟨[], [], [], by simpa using hl, by simp, rfl, by simp⟩
  | @down l k path n s hdir _ ih =>
    obtain ⟨names, before, after, hnames, rfl, rfl, hlisting⟩ := ih hdir
    have hn : n ∈ t.entryNames l := mem_entryNames.2 (by rw [hdir]; rfl)
    obtain ⟨front, back, hsplit⟩ := List.append_of_mem hn
    have hvisit : t.visit l ending n = (t.listing (l ++ [n]) ending).map (n :: ·) := by
      rw [visit, hdir]
    rw [List.append_assoc, List.singleton_append] at hnames
    refine ⟨n :: names, front.flatMap (t.visit l ending) ++ before.map (n :: ·),
      after.map (n :: ·) ++ back.flatMap (t.visit l ending), hnames, by simp, rfl, ?_⟩
    rw [listing_eq_flatMap t l, hsplit, List.flatMap_append, List.flatMap_cons, hvisit, hlisting]
    simp

/-- Nothing else in a listing is below that directory. -/
theorem not_prefix_of_listing {before after : List (List String)}
    (hdir : t.entryAt? (l ++ names) = some .directory)
    (h : t.listing l ending =
      before ++ ((t.listing (l ++ names) ending).map (names ++ ·) ++ after)) :
    ∀ x ∈ before ++ after, ¬ names <+: x := by
  rintro x hx ⟨rest, rfl⟩
  have hmem : names ++ rest ∈ t.listing l ending := by
    rw [h, List.mem_append, List.mem_append]
    rcases List.mem_append.1 hx with hx | hx
    · exact .inl hx
    · exact .inr (.inr hx)
  obtain ⟨-, hend, bytes, hb⟩ := mem_listing.1 hmem
  have hne : rest ≠ [] := by
    rintro rfl
    rw [List.append_nil, hdir] at hb
    cases hb
  -- so it is in the piece as well, and nothing is listed twice
  have hpiece : names ++ rest ∈ (t.listing (l ++ names) ending).map (names ++ ·) := by
    refine List.mem_map.2 ⟨rest, mem_listing.2 ⟨hne, ?_, bytes, ?_⟩, rfl⟩
    · rwa [endsIn_append names hne] at hend
    · rwa [List.append_assoc]
  have hnodup := h ▸ nodup_listing t l ending
  rw [List.nodup_append, List.nodup_append] at hnodup
  obtain ⟨-, ⟨-, -, hafter⟩, hbefore⟩ := hnodup
  rcases List.mem_append.1 hx with hx | hx
  · exact hbefore _ hx _ (List.mem_append_left _ hpiece) rfl
  · exact hafter _ hpiece _ hx rfl

/-! ### Paths -/

/-- The names on the path of a file that is listed. -/
theorem names_of_mem_listing (hd : Path.IsLocation d) (h : names ∈ t.listing l ending) :
    Path.names (names.foldl Path.child (Path.ofLocation d)) = d ++ names := by
  obtain ⟨-, -, bytes, hb⟩ := mem_listing.1 h
  have hnames : Path.IsLocation names := isLocation_of_append hb
  rw [Path.foldl_child_ofLocation hd hnames, Path.names_ofLocation (hd.append hnames)]

theorem pairwise_listed (hd : Path.IsLocation d)
    (h : t.stat (Path.ofLocation d) = .ok (l, .directory)) (ending : String) :
    (t.listed ending (Path.ofLocation d)).Pairwise fun a b =>
      List.Lex Text.UnitsLT (Path.names a) (Path.names b) := by
  rw [listed_of_stat h]
  refine List.pairwise_map.2 ((pairwise_listing t l ending).imp_of_mem ?_)
  rintro a b ha hb ⟨hle, hne⟩
  rw [names_of_mem_listing hd ha, names_of_mem_listing hd hb]
  exact ((lex_of_namesLE hle).resolve_left hne).append_left _ d

theorem nodup_listed (hd : Path.IsLocation d)
    (h : t.stat (Path.ofLocation d) = .ok (l, .directory)) (ending : String) :
    (t.listed ending (Path.ofLocation d)).Nodup := by
  rw [listed_of_stat h]
  refine List.pairwise_map.2 ((pairwise_listing t l ending).imp_of_mem ?_)
  rintro a b ha hb ⟨-, hne⟩ heq
  have hnames := congrArg Path.names heq
  rw [names_of_mem_listing hd ha, names_of_mem_listing hd hb] at hnames
  exact hne (List.append_cancel_left hnames)

/-- What is listed below a directory further below is a piece of what is listed, and all of it that
starts with the path of that directory. -/
theorem listed_descends (hd : Path.IsLocation d)
    (h : t.stat (Path.ofLocation d) = .ok (l, .directory))
    (hs : t.Descends l (Path.ofLocation d) k s) (ending : String) :
    t.isDirectory s = true ∧ ∃ before after,
      t.listed ending (Path.ofLocation d) = before ++ (t.listed ending s ++ after) ∧
      (∀ file ∈ t.listed ending s, Path.names s <+: Path.names file) ∧
      ∀ file ∈ before ++ after, ¬ Path.names s <+: Path.names file := by
  have hl : t.entryAt? l = some .directory := entryAt?_of_walk t.entryAt?_nil (stat_eq_ok.1 h)
  obtain ⟨names, before, after, hdir, rfl, rfl, hlisting⟩ := hs.exists_names hl ending
  have hnames : Path.IsLocation names := isLocation_of_append hdir
  rw [Path.foldl_child_ofLocation hd hnames, Path.names_ofLocation (hd.append hnames)]
  have hstat : t.stat (Path.ofLocation (d ++ names)) = .ok (l ++ names, .directory) :=
    stat_below hd h hdir (by simp)
  refine ⟨isDirectory_iff.2 ⟨Path.ofLocation_ne_empty _, _, hstat⟩,
    before.map fun x => x.foldl Path.child (Path.ofLocation d),
    after.map fun x => x.foldl Path.child (Path.ofLocation d), ?_, ?_, ?_⟩
  · rw [listed_of_stat h, listed_of_stat hstat, hlisting]
    simp [Function.comp_def, Path.foldl_child_ofLocation hd hnames]
  · intro file hfile
    rw [listed_of_stat hstat] at hfile
    obtain ⟨x, hx, rfl⟩ := List.mem_map.1 hfile
    rw [names_of_mem_listing (hd.append hnames) hx]
    exact List.prefix_append _ x
  · intro file hfile
    rw [← List.map_append] at hfile
    obtain ⟨x, hx, rfl⟩ := List.mem_map.1 hfile
    have hmem : x ∈ t.listing l ending := by
      rw [hlisting, List.mem_append, List.mem_append]
      exact (List.mem_append.1 hx).imp_right .inr
    rw [names_of_mem_listing hd hmem, List.prefix_append_right_inj]
    exact not_prefix_of_listing hdir hlisting x hx

/-- **The walk of a directory.** Below a directory at a normal path, which a link may lead to, all
files are found that directories lead to and whose names end in a given way, once each, in strictly
ascending order of the names on their paths. What is found below a directory further below is one
piece of this, with the same paths, and all that starts with its path. -/
theorem sources_walk (hp : Path.IsNormal directory) (hdir : t.isDirectory directory = true)
    (ending : String) :
    ∃ files, t.sources directory ending = .ok files ∧
      (∀ file, file ∈ files ↔ t.HasSource ending directory file) ∧ files.Nodup ∧
      files.Pairwise (fun a b => List.Lex Text.UnitsLT (Path.names a) (Path.names b)) ∧
      ∀ s, t.HasSubdirectory directory s →
        ∃ before piece after, t.sources s ending = .ok piece ∧ files = before ++ (piece ++ after) ∧
          (∀ file ∈ piece, Path.names s <+: Path.names file) ∧
          ∀ file ∈ before ++ after, ¬ Path.names s <+: Path.names file := by
  have hmem : ∀ file, file ∈ t.listed ending directory ↔ t.HasSource ending directory file :=
    fun file => mem_listed.trans (isListed_iff_hasSource hp)
  obtain ⟨-, l, hstat⟩ := isDirectory_iff.1 hdir
  obtain ⟨d, hd, rfl⟩ := hp
  refine ⟨_, sources_of_isDirectory hdir, hmem, nodup_listed hd hstat ending,
    pairwise_listed hd hstat ending, ?_⟩
  rintro s ⟨l', k, hstat', hs⟩
  obtain ⟨rfl, -⟩ := Prod.ext_iff.1 (Except.ok.inj (hstat.symm.trans hstat'))
  obtain ⟨hsub, before, after, hfiles, hpiece, hothers⟩ := listed_descends hd hstat hs ending
  exact ⟨before, _, after, sources_of_isDirectory hsub, hfiles, hpiece, hothers⟩

/-! ### A sample -/

/-- A directory behind a link, with a directory, a file and a link in it. -/
def walkedTree : FileTree :=
  (((((empty.put ["r"] .directory (by decide)).put
    ["v"] (.link ["r"]) (by decide)).put
    ["r", "b.php"] (.link ["r", "a.php"]) (by decide)).put
    ["r", "a.php"] (.file []) (by decide)).put
    ["r", "a"] .directory (by decide)).put
    ["r", "a", "x.php"] (.file []) (by decide)

/-- The link is not listed, and the walk does not go by the order of the texts. -/
theorem sources_walk_sample :
    Path.IsNormal "/v" ∧ walkedTree.isDirectory "/v" = true ∧
      walkedTree.HasSubdirectory "/v" "/v/a" ∧
      ∃ files, walkedTree.sources "/v" ".php" = .ok files ∧ files = ["/v/a/x.php", "/v/a.php"] ∧
        Text.UnitsLT "/v/a.php" "/v/a/x.php" ∧
        files.Pairwise (fun a b => List.Lex Text.UnitsLT (Path.names a) (Path.names b)) ∧
        ∃ before piece after, walkedTree.sources "/v/a" ".php" = .ok piece ∧
          files = before ++ (piece ++ after) ∧ piece = ["/v/a/x.php"] := by
  have hnormal : Path.IsNormal "/v" := Path.isNormal_iff.2 (by decide +kernel)
  have hdir : walkedTree.isDirectory "/v" = true := by decide +kernel
  have hchild : Path.child "/v" "a" = "/v/a" := by decide +kernel
  have hsub : walkedTree.HasSubdirectory "/v" "/v/a" := by
    refine ⟨["r"], ["r", "a"], by rfl, ?_⟩
    rw [← hchild]
    exact .down (by decide +kernel) .here
  have hlisting : walkedTree.listing ["r"] ".php" = [["a", "x.php"], ["a.php"]] := by
    decide +kernel
  have hall : walkedTree.sources "/v" ".php" = .ok ["/v/a/x.php", "/v/a.php"] := by
    have hpaths : ([["a", "x.php"], ["a.php"]].map fun names => names.foldl Path.child "/v") =
        ["/v/a/x.php", "/v/a.php"] := by decide +kernel
    have hstat : walkedTree.stat "/v" = .ok (["r"], .directory) := by rfl
    rw [sources, hstat]
    dsimp only
    rw [hlisting, hpaths]
  have hpart : (walkedTree.sources "/v/a" ".php").toOption = some ["/v/a/x.php"] := by
    decide +kernel
  obtain ⟨files, hfiles, -, -, hascending, hpieces⟩ := sources_walk hnormal hdir ".php"
  obtain ⟨before, piece, after, hpiece, hsplit, -⟩ := hpieces "/v/a" hsub
  obtain rfl := Except.ok.inj (hfiles.symm.trans hall)
  rw [hpiece] at hpart
  refine ⟨hnormal, hdir, hsub, _, hfiles, rfl, ?_, hascending, before, piece,
    after, hpiece, hsplit, Option.some.inj hpart⟩
  exact (Text.unitsLE_iff.1 (by decide +kernel)).resolve_left (by decide)

end ApiReport.FileTree
