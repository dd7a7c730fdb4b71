import ApiReport.Proofs.FileTree.Listing

/-!
# Files reached from a directory

From a directory one reaches the files that stand in it, and those that are reached from the
directories that stand in it; links are no directories, so nothing is reached through them. What is
listed below a directory is what is reached from it, as far as names end in the given way.

Key definitions: `FileTree.Reaches`, `FileTree.HasSource`.
Key theorems: `FileTree.reaches_iff`, `FileTree.isListed_iff_hasSource`.
-/
namespace ApiReport

namespace Path

theorem baseName_ofLocation {l : Location} (hl : IsLocation l) :
    baseName (ofLocation l) = l.getLast?.getD "" := by
  rw [baseName, names_ofLocation hl]

end Path

namespace FileTree

variable {t : FileTree} {l d : Location} {names : List String} {ending path directory file : String}

/-- A file is reached from the directory at a location, the paths of both being given. -/
inductive Reaches (t : FileTree) : Location → String → String → Prop
  | file {l path n bytes} : t.entryAt? (l ++ [n]) = some (.file bytes) →
      Reaches t l path (Path.child path n)
  | down {l path n file} : t.entryAt? (l ++ [n]) = some .directory →
      Reaches t (l ++ [n]) (Path.child path n) file → Reaches t l path file

/-- A file whose name ends in a given way and that is reached from a directory. -/
structure HasSource (t : FileTree) (ending directory file : String) : Prop where
  ending : ending.toList <:+ (Path.baseName file).toList
  reached : ∃ l, t.stat directory = .ok (l, .directory) ∧ t.Reaches l directory file

/-- All steps to what stands further below lead to directories. -/
theorem reaches_of_entryAt? {bytes : List UInt8} : ∀ {names : List String} {l : Location}
    {path : String}, names ≠ [] → t.entryAt? (l ++ names) = some (.file bytes) →
    t.Reaches l path (names.foldl Path.child path)
  | [], _, _, hne, _ => absurd rfl hne
  | [n], _, _, _, he => .file he
  | n :: m :: names, l, path, _, he => by
    have hdir : t.entryAt? (l ++ [n]) = some .directory := by
      refine entryAt?_of_below (k := l ++ n :: m :: names) ?_ (by simp) (by rw [he]; rfl)
      exact ⟨m :: names, by simp⟩
    have he' : t.entryAt? (l ++ [n] ++ m :: names) = some (.file bytes) := by
      rw [List.append_assoc, List.singleton_append]
      exact he
    exact .down hdir (reaches_of_entryAt? (List.cons_ne_nil m names) he')

theorem reaches_iff : t.Reaches l path file ↔ ∃ names bytes, names ≠ [] ∧
    t.entryAt? (l ++ names) = some (.file bytes) ∧ file = names.foldl Path.child path := by
  constructor
  · intro h
    induction h with
    | @file l path n bytes he => exact ⟨[n], bytes, by simp, he, rfl⟩
    | @down l path n file _ _ ih =>
      obtain ⟨names, bytes, -, he, hfile⟩ := ih
      refine ⟨n :: names, bytes, by simp, ?_, hfile⟩
      rwa [List.append_assoc, List.singleton_append] at he
  · rintro ⟨names, bytes, hne, he, rfl⟩
    exact reaches_of_entryAt? hne he

/-- The last name is the one that the path shows. -/
theorem endsIn_iff (hd : Path.IsLocation d) (hn : Path.IsLocation names) (hne : names ≠ []) :
    endsIn ending names = true ↔
      ending.toList <:+ (Path.baseName (Path.ofLocation (d ++ names))).toList := by
  rw [Path.baseName_ofLocation (hd.append hn), List.getLast?_append_of_ne_nil d hne, endsIn,
    List.getLast?_eq_some_getLast hne, Option.any_some, Option.getD_some,
    List.isSuffixOf_iff_suffix]

/-- Below a normal path, what is listed is what is reached. -/
theorem isListed_iff_hasSource (hp : Path.IsNormal directory) :
    t.IsListed ending directory file ↔ t.HasSource ending directory file := by
  obtain ⟨d, hd, rfl⟩ := hp
  constructor
  · rintro ⟨l, names, bytes, hs, hne, hend, he, rfl⟩
    have hn : Path.IsLocation names := isLocation_of_append he
    refine ⟨?_, l, hs, reaches_of_entryAt? hne he⟩
    rwa [Path.foldl_child_ofLocation hd hn, ← endsIn_iff hd hn hne]
  · rintro ⟨hend, l, hs, hreach⟩
    obtain ⟨names, bytes, hne, he, rfl⟩ := reaches_iff.1 hreach
    have hn : Path.IsLocation names := isLocation_of_append he
    rw [Path.foldl_child_ofLocation hd hn, ← endsIn_iff hd hn hne] at hend
    exact ⟨l, names, bytes, hs, hne, hend, he, rfl⟩

end FileTree

end ApiReport
