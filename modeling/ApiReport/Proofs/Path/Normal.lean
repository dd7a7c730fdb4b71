import ApiReport.FileTree.Walk
import ApiReport.Settings.Load

/-!
# Normal paths

A normal path is the path of a location: absolute, with one slash in front of every name and none at
the end, and without `.` and `..`. It names its location whatever directory it is taken from, the
paths of entries of its directory are normal as well, and all paths of loaded settings are normal.

Key definitions: `Path.IsLocation`, `Path.IsNormal`, `Settings.IsNormal`.
Key theorems: `Path.names_ofLocation`, `Path.foldl_child_ofLocation`, `Path.resolve_isNormal`,
`Settings.load_isNormal`.
-/
namespace ApiReport

namespace Path

/-- A list of names that can stand one below the other. -/
def IsLocation (l : Location) : Prop := ∀ n ∈ l, IsName n

instance (l : Location) : Decidable (IsLocation l) :=
  inferInstanceAs (Decidable (∀ n ∈ l, IsName n))

/-- A path that is written as the path of a location. -/
def IsNormal (p : String) : Prop := ∃ l : Location, IsLocation l ∧ p = ofLocation l

theorem IsLocation.append {l k : Location} (hl : IsLocation l) (hk : IsLocation k) :
    IsLocation (l ++ k) := by
  intro n hn
  rcases List.mem_append.1 hn with hn | hn
  · exact hl n hn
  · exact hk n hn

theorem IsLocation.dropLast {l : Location} (hl : IsLocation l) : IsLocation l.dropLast :=
  fun n hn => hl n (List.dropLast_subset l hn)

/-! ### The path of a location -/

theorem toList_ofLocation (l : Location) :
    (ofLocation l).toList = '/' :: Text.join '/' (l.map String.toList) := by
  unfold ofLocation
  rw [String.toList_append, ← Text.toList_intercalate]
  rfl

theorem pieces_ofLocation {l : Location} (hl : IsLocation l) (hne : l ≠ []) :
    Text.pieces '/' (ofLocation l).toList = [] :: l.map String.toList := by
  rw [toList_ofLocation, Text.pieces, if_pos rfl, Text.pieces_join (by simpa using hne)]
  intro p hp
  obtain ⟨n, hn, rfl⟩ := List.mem_map.1 hp
  exact (hl n hn).2.2.2

theorem names_ofLocation {l : Location} (hl : IsLocation l) : names (ofLocation l) = l := by
  by_cases hne : l = []
  · subst hne; rfl
  · unfold names
    rw [pieces_ofLocation hl hne, List.filter_cons_of_neg (by simp), List.filter_eq_self.2]
    · simp
    · intro p hp
      obtain ⟨n, hn, rfl⟩ := List.mem_map.1 hp
      simpa using (hl n hn).1

theorem isNormal_iff {p : String} :
    IsNormal p ↔ IsLocation (names p) ∧ p = ofLocation (names p) := by
  constructor
  · rintro ⟨l, hl, rfl⟩
    rw [names_ofLocation hl]
    exact ⟨hl, rfl⟩
  · rintro ⟨hl, hp⟩
    exact ⟨names p, hl, hp⟩

instance (p : String) : Decidable (IsNormal p) := decidable_of_iff' _ isNormal_iff

theorem isAbsolute_ofLocation (l : Location) : isAbsolute (ofLocation l) = true := by
  simp [isAbsolute, toList_ofLocation]

theorem ofLocation_ne_empty (l : Location) : ofLocation l ≠ "" := by
  intro h
  have := congrArg String.toList h
  simp [toList_ofLocation] at this

theorem IsNormal.isAbsolute {p : String} (h : IsNormal p) : isAbsolute p = true := by
  obtain ⟨l, -, rfl⟩ := h
  exact isAbsolute_ofLocation l

theorem IsNormal.ne_empty {p : String} (h : IsNormal p) : p ≠ "" := by
  obtain ⟨l, -, rfl⟩ := h
  exact ofLocation_ne_empty l

theorem getLast?_join {ps : List (List Char)} (h : ∀ p ∈ ps, p ≠ [] ∧ '/' ∉ p) :
    (Text.join '/' ps).getLast? ≠ some '/' := by
  induction ps with
  | nil => simp [Text.join]
  | cons p ps ih =>
    obtain ⟨hp, hps⟩ := List.forall_mem_cons.1 h
    cases ps with
    | nil =>
      intro hl
      exact hp.2 (List.mem_of_getLast? hl)
    | cons q ps =>
      have hne : Text.join '/' (q :: ps) ≠ [] := by
        cases ps with
        | nil => exact (hps q List.mem_cons_self).1
        | cons r ps => simp [Text.join]
      rw [Text.join, List.getLast?_append, List.getLast?_cons_of_ne_nil hne,
        List.getLast?_eq_some_getLast hne, Option.some_or, ← List.getLast?_eq_some_getLast hne]
      exact ih hps

theorem steps_ofLocation {l : Location} (hl : IsLocation l) (hne : l ≠ []) :
    steps (ofLocation l) = l := by
  have hlast : (ofLocation l).toList.getLast? ≠ some '/' := by
    have hj : Text.join '/' (l.map String.toList) ≠ [] := by
      cases l with
      | nil => exact absurd rfl hne
      | cons n l =>
        have : n.toList ≠ [] := by simpa using (hl n List.mem_cons_self).1
        cases l <;> simp [Text.join, this]
    rw [toList_ofLocation, List.getLast?_cons_of_ne_nil hj]
    refine getLast?_join fun p hp => ?_
    obtain ⟨n, hn, rfl⟩ := List.mem_map.1 hp
    exact ⟨by simpa using (hl n hn).1, (hl n hn).2.2.2⟩
  rw [steps, names_ofLocation hl, if_neg hlast, List.append_nil]

/-! ### Following names -/

/-- Names other than `.` and `..` only lead down. -/
theorem collapse_eq_append : ∀ {ns : List String} (here : Location), IsLocation ns →
    collapse here ns = here ++ ns
  | [], here, _ => by rw [collapse, List.append_nil]
  | n :: ns, here, h => by
    obtain ⟨hn, hns⟩ := List.forall_mem_cons.1 h
    rw [collapse, if_neg hn.2.1, if_neg hn.2.2.1, collapse_eq_append _ hns, List.append_assoc,
      List.singleton_append]

theorem locate_ofLocation (base : Location) {l : Location} (hl : IsLocation l) :
    locate base (ofLocation l) = l := by
  rw [locate, isAbsolute_ofLocation, if_pos rfl, names_ofLocation hl, collapse_eq_append _ hl,
    List.nil_append]

theorem child_ofLocation {l : Location} (hl : IsLocation l) (n : String) :
    child (ofLocation l) n = ofLocation (l ++ [n]) := by
  rw [child, isAbsolute_ofLocation, if_pos rfl, locate_ofLocation _ hl]

/-- The path of what stands below the directory at a normal path is normal. -/
theorem foldl_child_ofLocation : ∀ {ns : List String} {l : Location}, IsLocation l → IsLocation ns →
    ns.foldl child (ofLocation l) = ofLocation (l ++ ns)
  | [], l, _, _ => by rw [List.foldl_nil, List.append_nil]
  | n :: ns, l, hl, h => by
    obtain ⟨hn, hns⟩ := List.forall_mem_cons.1 h
    have hln : IsLocation (l ++ [n]) := hl.append (by simpa [IsLocation] using hn)
    rw [List.foldl_cons, child_ofLocation hl, foldl_child_ofLocation hln hns, List.append_assoc,
      List.singleton_append]

/-! ### Resolved paths -/

theorem isName_of_mem_names {path n : String} (h : n ∈ names path) (h1 : n ≠ ".")
    (h2 : n ≠ "..") : IsName n := by
  obtain ⟨p, hp, rfl⟩ := List.mem_map.1 h
  obtain ⟨hp, hne⟩ := List.mem_filter.1 hp
  refine ⟨by simpa using hne, h1, h2, ?_⟩
  rw [String.toList_ofList]
  exact Text.not_mem_of_mem_pieces hp

theorem collapse_isLocation : ∀ {ns : List String} {here : Location}, IsLocation here →
    (∀ n ∈ ns, n ≠ "." → n ≠ ".." → IsName n) → IsLocation (collapse here ns)
  | [], _, hh, _ => hh
  | n :: ns, here, hh, h => by
    obtain ⟨hn, hns⟩ := List.forall_mem_cons.1 h
    rw [collapse]
    by_cases h1 : n = "."
    · rw [if_pos h1]; exact collapse_isLocation hh hns
    · by_cases h2 : n = ".."
      · rw [if_neg h1, if_pos h2]; exact collapse_isLocation hh.dropLast hns
      · rw [if_neg h1, if_neg h2]
        exact collapse_isLocation (hh.append (by simpa [IsLocation] using hn h1 h2)) hns

theorem locate_isLocation {base : Location} (hb : IsLocation base) (path : String) :
    IsLocation (locate base path) := by
  refine collapse_isLocation ?_ fun n hn h1 h2 => isName_of_mem_names hn h1 h2
  split
  · exact fun n hn => by simp at hn
  · exact hb

/-- Whatever is resolved is normal. -/
theorem resolve_isNormal (base path : String) : IsNormal (resolve base path) :=
  ⟨_, locate_isLocation (locate_isLocation (fun n hn => by simp at hn) base) path, rfl⟩

/-- A normal path is resolved to itself. -/
theorem resolve_eq_self {path : String} (h : IsNormal path) (base : String) :
    resolve base path = path := by
  obtain ⟨l, hl, rfl⟩ := h
  rw [resolve, locate_ofLocation _ hl]

end Path

namespace Settings

/-- Settings whose paths are all normal. -/
structure IsNormal (s : Settings) : Prop where
  rootDir : Path.IsNormal s.rootDir
  specPath : Path.IsNormal s.specPath
  outputPath : Path.IsNormal s.outputPath
  codeOutputPath : Path.IsNormal s.codeOutputPath
  scanRoots : ∀ p ∈ s.scanRoots, Path.IsNormal p
  controllerDirs : ∀ p ∈ s.controllerDirs, Path.IsNormal p
  excludedFiles : ∀ p ∈ s.excludedFiles, Path.IsNormal p

theorem resolve_isNormal (workingDir : String) (s : Settings) :
    (s.resolve workingDir).IsNormal where
  rootDir := Path.resolve_isNormal _ _
  specPath := Path.resolve_isNormal _ _
  outputPath := Path.resolve_isNormal _ _
  codeOutputPath := Path.resolve_isNormal _ _
  scanRoots := List.forall_mem_map.2 fun _ _ => Path.resolve_isNormal _ _
  controllerDirs := List.forall_mem_map.2 fun _ _ => Path.resolve_isNormal _ _
  excludedFiles := List.forall_mem_map.2 fun _ _ => Path.resolve_isNormal _ _

/-- Settings that have been loaded are normal, whatever was given. -/
theorem load_isNormal {workingDir : String} {env : Environment} {given : Given} {s : Settings}
    (h : load workingDir env given = .ok s) : s.IsNormal := by
  unfold load at h
  split at h
  · obtain rfl := Except.ok.inj h
    exact resolve_isNormal workingDir _
  · cases h

end Settings

end ApiReport
