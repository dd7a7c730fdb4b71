import ApiReport.Proofs.Path.Spelling

/-!
# Paths as reports show them

The way from one location to another starts with a step up exactly if the second is not below the
first. A report shows the way, if it does not start like such a step, and else the path itself. The
names below the root directory are what follows it in the path, so that what is shown leads back to
the file. A name that itself starts with two full stops is taken for a step up: a file below it is
shown by its path, although it lies below the root directory.

Key definitions: `Path.startBelow`, `Path.IsBelow`, `Path.StartsUp`.
Key theorems: `Path.relative_append`, `Path.relative_of_not_below`, `Path.isBelow_ofLocation`,
`Path.display_below`, `Path.display_of_isBelow`, `Path.not_always_relative`.
-/
namespace ApiReport.Path

variable {l m k : Location} {rootDir file rest : String}

/-- How the paths of all entries below a directory start. -/
def startBelow (directory : String) : String := if directory = "/" then "/" else directory ++ "/"

/-- A file lies below a directory: its path is that of the directory and a separator, and something
follows. -/
def IsBelow (directory file rest : String) : Prop := rest ≠ "" ∧ file = startBelow directory ++ rest

/-- What starts with two full stops. -/
def StartsUp (path : String) : Prop := ['.', '.'] <+: path.toList

instance (path : String) : Decidable (StartsUp path) := inferInstanceAs (Decidable (_ <+: _))

/-! ### Ways between locations -/

theorem relative_append : ∀ l k : Location, relative l (l ++ k) = k
  | [], [] => rfl
  | [], _ :: _ => rfl
  | n :: l, k => by rw [List.cons_append, relative, if_pos rfl, relative_append l k]

/-- To what is not below a location, the first step leads up. -/
theorem relative_of_not_below : ∀ {l m : Location}, ¬ l <+: m →
    ∃ ns, relative l m = ".." :: ns
  | [], m, h => absurd (List.nil_prefix) h
  | n :: l, [], _ => ⟨List.replicate l.length "..", by
      rw [relative, List.append_nil, List.length_cons, List.replicate_succ]
      simp⟩
  | n :: l, n' :: m, h => by
    rw [relative]
    by_cases hn : n = n'
    · rw [if_pos hn]
      exact relative_of_not_below fun hl => h (List.cons_prefix_cons.2 ⟨hn, hl⟩)
    · rw [if_neg hn, List.replicate_succ, List.cons_append]
      exact ⟨_, rfl⟩

/-! ### Names joined -/

theorem exists_intercalate_cons (n : String) (ns : List String) :
    ∃ s, "/".intercalate (n :: ns) = n ++ s := by
  cases ns with
  | nil => exact ⟨"", by rw [String.intercalate_singleton, String.append_empty]⟩
  | cons n' ns => exact ⟨_, by rw [String.intercalate_cons_cons, String.append_assoc]⟩

theorem intercalate_ne_empty (hk : IsLocation k) (hne : k ≠ []) : "/".intercalate k ≠ "" := by
  obtain ⟨n, ns, rfl⟩ := List.exists_cons_of_ne_nil hne
  obtain ⟨s, hs⟩ := exists_intercalate_cons n ns
  rw [hs]
  simp [(hk n List.mem_cons_self).1]

theorem isAbsolute_intercalate (hk : IsLocation k) (hne : k ≠ []) :
    isAbsolute ("/".intercalate k) = false := by
  obtain ⟨n, ns, rfl⟩ := List.exists_cons_of_ne_nil hne
  obtain ⟨s, hs⟩ := exists_intercalate_cons n ns
  have hn := hk n List.mem_cons_self
  rw [hs, isAbsolute_append hn.1, isAbsolute_of_isName hn]

theorem names_intercalate (hk : IsLocation k) : names ("/".intercalate k) = k := by
  have h := names_append "" ("/".intercalate k)
  rw [String.empty_append, show names "" = [] from rfl, List.nil_append] at h
  rw [← h]
  exact names_ofLocation hk

/-! ### What follows a directory in a path -/

theorem names_startBelow (directory path : String) :
    names (startBelow directory ++ path) = names directory ++ names path := by
  unfold startBelow
  split
  · next h =>
    rw [h]
    exact names_append "" path
  · exact names_append directory path

theorem ofLocation_append (hl : IsLocation l) (hne : k ≠ []) :
    ofLocation (l ++ k) = startBelow (ofLocation l) ++ "/".intercalate k := by
  unfold startBelow
  by_cases hnil : l = []
  · rw [hnil]
    rfl
  · have hroot : ofLocation l ≠ "/" := by
      intro h
      have hnames := congrArg names h
      rw [names_ofLocation hl] at hnames
      exact hnil hnames
    rw [if_neg hroot, ofLocation, ofLocation, String.intercalate_append_of_ne_nil hnil hne]
    simp only [String.append_assoc]

theorem length_le_startBelow (directory : String) :
    directory.length ≤ (startBelow directory).length := by
  unfold startBelow
  split
  · next h => exact Nat.le_of_eq (congrArg String.length h)
  · rw [String.length_append]
    exact Nat.le_add_right _ _

/-- What follows a directory in the path of a file below it are the names from there on. -/
theorem isBelow_ofLocation (hl : IsLocation l) (hm : IsLocation m) :
    IsBelow (ofLocation l) (ofLocation m) rest ↔
      ∃ k, k ≠ [] ∧ m = l ++ k ∧ rest = "/".intercalate k := by
  constructor
  · rintro ⟨hrest, hfile⟩
    have hnames : m = l ++ names rest := by
      rw [← names_ofLocation hm, hfile, names_startBelow, names_ofLocation hl]
    have hne : names rest ≠ [] := by
      intro hnil
      rw [hnil, List.append_nil] at hnames
      have hlength := congrArg String.length hfile
      rw [hnames, String.length_append] at hlength
      have hstart := length_le_startBelow (ofLocation l)
      have hpos : 0 < rest.length := by
        rw [Nat.pos_iff_ne_zero, ne_eq, String.length_eq_zero_iff]
        exact hrest
      omega
    refine ⟨names rest, hne, hnames, ?_⟩
    rw [hnames, ofLocation_append hl hne] at hfile
    exact ((String.append_right_inj _).1 hfile).symm
  · rintro ⟨k, hne, rfl, rfl⟩
    have hk : IsLocation k := fun n hn => hm n (List.mem_append_right l hn)
    exact ⟨intercalate_ne_empty hk hne, ofLocation_append hl hne⟩

/-! ### What is shown -/

theorem display_ofLocation (hl : IsLocation l) (hm : IsLocation m) :
    display (ofLocation l) (ofLocation m) =
      if "/".intercalate (relative l m) = "" ∨ StartsUp ("/".intercalate (relative l m)) then
        ofLocation m
      else "/".intercalate (relative l m) := by
  unfold display
  rw [locate_ofLocation _ hl, locate_ofLocation _ hm]
  refine ite_congr ?_ (fun _ => rfl) fun _ => rfl
  rw [Bool.or_eq_true, decide_eq_true_eq, List.isPrefixOf_iff_prefix, StartsUp]

/-- A file that is not below the root directory is shown by its path. -/
theorem display_of_not_below (hl : IsLocation l) (hm : IsLocation m)
    (h : ∀ k, k ≠ [] → m ≠ l ++ k) : display (ofLocation l) (ofLocation m) = ofLocation m := by
  rw [display_ofLocation hl hm]
  by_cases hprefix : l <+: m
  · obtain ⟨k, rfl⟩ := hprefix
    cases k with
    | nil => rw [relative_append, if_pos (.inl rfl)]
    | cons n ns => exact absurd rfl (h (n :: ns) (List.cons_ne_nil n ns))
  · obtain ⟨ns, hns⟩ := relative_of_not_below hprefix
    obtain ⟨s, hs⟩ := exists_intercalate_cons ".." ns
    have hup : StartsUp (".." ++ s) := by
      rw [StartsUp, String.toList_append]
      exact List.prefix_append _ _
    rw [hns, hs, if_pos (.inr hup)]

/-- A file below the root directory is shown by the names from there on, unless the first of them
looks like a step up. -/
theorem display_below (hl : IsLocation l) (hk : IsLocation k) (hne : k ≠ []) :
    display (ofLocation l) (ofLocation (l ++ k)) =
      if StartsUp ("/".intercalate k) then ofLocation (l ++ k) else "/".intercalate k := by
  rw [display_ofLocation hl (hl.append hk), relative_append]
  simp only [intercalate_ne_empty hk hne, false_or]

/-- What is shown of a file leads back to it from the root directory. -/
theorem resolve_display (hroot : IsNormal rootDir) (hfile : IsNormal file) :
    resolve rootDir (display rootDir file) = file := by
  obtain ⟨l, hl, rfl⟩ := hroot
  obtain ⟨m, hm, rfl⟩ := hfile
  have hself : resolve (ofLocation l) (ofLocation m) = ofLocation m :=
    resolve_eq_self ⟨m, hm, rfl⟩ _
  by_cases hbelow : ∃ k, k ≠ [] ∧ m = l ++ k
  · obtain ⟨k, hne, rfl⟩ := hbelow
    have hk : IsLocation k := fun n hn => hm n (List.mem_append_right l hn)
    rw [display_below hl hk hne]
    split
    · exact hself
    · rw [resolve, locate_ofLocation _ hl, locate, isAbsolute_intercalate hk hne, if_neg (by simp),
        names_intercalate hk, collapse_eq_append _ hk]
  · rw [display_of_not_below hl hm fun k hne hmk => hbelow ⟨k, hne, hmk⟩, hself]

/-- Two files are never shown alike. -/
theorem display_inj {file' : String} (hroot : IsNormal rootDir) (hfile : IsNormal file)
    (hfile' : IsNormal file') : display rootDir file = display rootDir file' ↔ file = file' := by
  constructor
  · intro h
    rw [← resolve_display hroot hfile, h, resolve_display hroot hfile']
  · rintro rfl
    rfl

/-- **What a report shows of a file.** A file below the root directory is shown by the part of its
path behind the root directory and a separator, unless that part starts with two full stops; in this
case, and if the file is not below the root directory, it is shown by its path. -/
theorem display_of_isBelow (hroot : IsNormal rootDir) (hfile : IsNormal file) :
    (∀ rest, IsBelow rootDir file rest →
      display rootDir file = if StartsUp rest then file else rest) ∧
    ((∀ rest, ¬ IsBelow rootDir file rest) → display rootDir file = file) := by
  obtain ⟨l, hl, rfl⟩ := hroot
  obtain ⟨m, hm, rfl⟩ := hfile
  constructor
  · intro rest hrest
    obtain ⟨k, hne, rfl, rfl⟩ := (isBelow_ofLocation hl hm).1 hrest
    exact display_below hl (fun n hn => hm n (List.mem_append_right l hn)) hne
  · intro hrest
    refine display_of_not_below hl hm fun k hne hmk => ?_
    exact hrest _ ((isBelow_ofLocation hl hm).2 ⟨k, hne, hmk, rfl⟩)

/-- A directory named by three full stops is taken for a step up, one whose name starts with a
single one is not. -/
theorem display_of_isBelow_sample :
    (IsNormal "/srv/app" ∧ IsNormal "/srv/app/.../A.php" ∧ IsNormal "/srv/app/.x/..y" ∧
        IsNormal "/srv/app2") ∧
      display "/srv/app" "/srv/app/.../A.php" = "/srv/app/.../A.php" ∧
      display "/srv/app" "/srv/app/.x/..y" = ".x/..y" ∧
      display "/srv/app" "/srv/app2" = "/srv/app2" := by
  have hroot : IsNormal "/srv/app" := by decide
  have hdots : IsNormal "/srv/app/.../A.php" := by decide
  have hhidden : IsNormal "/srv/app/.x/..y" := by decide
  have hbeside : IsNormal "/srv/app2" := by decide
  have hnot : ∀ rest, ¬ IsBelow "/srv/app" "/srv/app2" rest := by
    rintro rest ⟨-, h⟩
    have h := congrArg String.toList h
    rw [String.toList_append] at h
    simp [startBelow] at h
  refine ⟨⟨hroot, hdots, hhidden, hbeside⟩, ?_, ?_, (display_of_isBelow hroot hbeside).2 hnot⟩
  · rw [(display_of_isBelow hroot hdots).1 ".../A.php" ⟨by decide, by decide⟩]
    rfl
  · rw [(display_of_isBelow hroot hhidden).1 ".x/..y" ⟨by decide, by decide⟩]
    rfl

/-- **Not every file below the root directory is shown relative to it.** One in a directory whose
name starts with two full stops is shown by its path. -/
theorem not_always_relative :
    ¬ ∀ rootDir file : String, IsNormal rootDir → IsNormal file →
      (∀ rest, IsBelow rootDir file rest → display rootDir file = rest) ∧
      ((∀ rest, ¬ IsBelow rootDir file rest) → display rootDir file = file) := by
  intro h
  have hshown := (h "/srv/app" "/srv/app/..cache/A.php" (by decide) (by decide)).1 "..cache/A.php"
    ⟨by decide, by decide⟩
  revert hshown
  decide

end ApiReport.Path
