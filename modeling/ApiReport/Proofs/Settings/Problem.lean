import ApiReport.Failure
import ApiReport.Proofs.Lookup
import ApiReport.Proofs.Settings.Load
import ApiReport.Proofs.Text.Margin

/-!
# Problems with settings

Every setting has a rule for its value. All settings are checked, whatever the others hold; a check
finds nothing if the value obeys the rule, and only then. So a load fails if some value breaks its
rule, and what it reports is put together from what each setting reports on its own: in a load in
which it has the same value and all others obey their rules.

Key definitions: `Settings.Obeys`, `Settings.found`, `Settings.pathFault?`, `Settings.IsLone`.
Key theorems: `Settings.problems_check`, `Settings.found_eq_nil_iff`, `Settings.reported_load`,
`Settings.IsLone.reported_list`, `Settings.load_reports`.
-/
namespace ApiReport.Settings

variable {key : Key} {item : Option Nat} {v : Value} {items : List Value} {workingDir : String}
  {env : Environment} {given : Given} {run : Except (List Problem) Settings}

/-! ### The rules -/

/-- A value that can be a path: a text that is not blank. -/
def IsPath (v : Value) : Prop := ∃ s, v = .text s ∧ ¬ Text.IsMargin s.toList

/-- A list of values that can be paths. -/
def IsPathList (v : Value) : Prop := ∃ items, v = .list items ∧ ∀ item ∈ items, IsPath item

/-- A value that can be the ending of source files: a full stop, and letters or digits after it. -/
def IsExtension (v : Value) : Prop :=
  ∃ s, v = .text s ∧ ∃ cs, cs ≠ [] ∧ s.toList = '.' :: cs ∧ ∀ c ∈ cs, c.isAlphanum = true

/-- A value that can be the name of routes files: a text without slashes of either kind. -/
def IsFileName (v : Value) : Prop :=
  ∃ s, v = .text s ∧ s ≠ "" ∧ '/' ∉ s.toList ∧ '\\' ∉ s.toList

/-- A value that can be a time zone: the name of one, or null. -/
def IsZone (v : Value) : Prop :=
  v = .null ∨ ∃ s, v = .text s ∧ (Calendar.Zone.named? s).isSome = true

/-- What every setting asks of its value. -/
def Obeys : Key → Value → Prop
  | .scanRoots => fun v => IsPathList v ∧ v ≠ .list []
  | .controllerDirs | .excludedFiles => IsPathList
  | .sourceExtension => IsExtension
  | .routesFileName => IsFileName
  | .timeZone => IsZone
  | .rootDir | .specPath | .outputPath | .codeOutputPath => IsPath

/-! ### Checks that say what is wrong -/

namespace Checked

variable {α β : Type}

/-- A check that has not passed says why. -/
def Explains (c : Checked α) : Prop := c.problems = [] → ∃ a, c = .fine a

theorem Explains.problems_eq_nil_iff {c : Checked α} (h : c.Explains) :
    c.problems = [] ↔ ∃ a, c = .fine a := by
  refine ⟨h, ?_⟩
  rintro ⟨a, rfl⟩
  rfl

theorem explains_fine (a : α) : Explains (.fine a) := fun _ => ⟨a, rfl⟩

theorem Explains.ite {p : Prop} [Decidable p] {c d : Checked α} (hc : c.Explains)
    (hd : d.Explains) : (if p then c else d).Explains := by
  split
  · exact hc
  · exact hd

theorem Explains.apply {f : Checked (α → β)} {a : Checked α} (hf : f.Explains) (ha : a.Explains) :
    (f.apply a).Explains := by
  intro h
  rw [problems_apply, List.append_eq_nil_iff] at h
  obtain ⟨g, rfl⟩ := hf h.1
  obtain ⟨x, rfl⟩ := ha h.2
  exact ⟨g x, rfl⟩

theorem explains_all : ∀ {cs : List (Checked α)}, (∀ c ∈ cs, c.Explains) → (all cs).Explains
  | [], _ => explains_fine []
  | c :: cs, h => by
    obtain ⟨hc, hcs⟩ := List.forall_mem_cons.1 h
    exact ((explains_fine List.cons).apply hc).apply (explains_all hcs)

end Checked

open Checked (explains_fine explains_all)

theorem explains_faulty {α : Type} (key : Key) (item : Option Nat) (wrong : Wrong) :
    (faulty key item wrong : Checked α).Explains := by
  intro h
  cases h

theorem explains_checkPath (key : Key) (item : Option Nat) (v : Value) :
    (checkPath key item v).Explains := by
  cases v with
  | text s => exact (explains_faulty _ _ _).ite (explains_fine _)
  | _ => exact explains_faulty _ _ _

theorem explains_checkPaths (key : Key) (v : Value) : (checkPaths key v).Explains := by
  unfold checkPaths
  split
  · refine explains_all fun c hc => ?_
    obtain ⟨e, -, rfl⟩ := List.mem_map.1 hc
    exact explains_checkPath key _ _
  · exact explains_faulty _ _ _

theorem explains_checkScanRoots (v : Value) : (checkScanRoots v).Explains := by
  unfold checkScanRoots
  split
  · exact explains_faulty _ _ _
  · exact explains_checkPaths _ _

theorem explains_checkExtension (v : Value) : (checkExtension v).Explains := by
  cases v with
  | text s => exact (explains_fine s).ite (explains_faulty _ _ _)
  | _ => exact explains_faulty _ _ _

theorem explains_checkFileName (v : Value) : (checkFileName v).Explains := by
  cases v with
  | text s => exact (explains_faulty _ _ _).ite ((explains_faulty _ _ _).ite (explains_fine s))
  | _ => exact explains_faulty _ _ _

theorem explains_checkZone (v : Value) : (checkZone v).Explains := by
  cases v with
  | null => exact explains_fine none
  | text s => exact (explains_fine (some s)).ite (explains_faulty _ _ _)
  | _ => exact explains_faulty _ _ _

theorem explains_check (raw : Key → Value) : (check raw).Explains :=
  ((((((((((explains_fine Settings.mk).apply (explains_checkPath _ _ _)).apply
    (explains_checkPath _ _ _)).apply (explains_checkPath _ _ _)).apply
    (explains_checkPath _ _ _)).apply (explains_checkScanRoots _)).apply
    (explains_checkPaths _ _)).apply (explains_checkPaths _ _)).apply
    (explains_checkExtension _)).apply (explains_checkFileName _)).apply (explains_checkZone _)

/-! ### What each check finds -/

/-- The problems that the check of a setting finds with a value. -/
def found : Key → Value → List Problem
  | .scanRoots => fun v => (checkScanRoots v).problems
  | .sourceExtension => fun v => (checkExtension v).problems
  | .routesFileName => fun v => (checkFileName v).problems
  | .timeZone => fun v => (checkZone v).problems
  | .controllerDirs => fun v => (checkPaths .controllerDirs v).problems
  | .excludedFiles => fun v => (checkPaths .excludedFiles v).problems
  | key => fun v => (checkPath key none v).problems

/-- The problems of all settings are those of each, one setting after the other. -/
theorem problems_check (raw : Key → Value) :
    (check raw).problems = Key.all.flatMap fun key => found key (raw key) := by
  unfold check Key.all
  simp only [Checked.problems_apply, List.flatMap_cons, List.flatMap_nil, List.append_nil,
    List.append_assoc]
  rfl

/-- What is wrong with a value where a path has to stand. -/
def pathFault? : Value → Option Wrong
  | .text s => if Text.IsMargin s.toList then some .blank else none
  | v => some (.notText v.kind)

theorem trimmed_eq_empty_iff {s : String} : Text.trimmed s = "" ↔ Text.IsMargin s.toList := by
  rw [Text.trimmed, String.ofList_eq_empty_iff, Text.trim_eq_nil_iff]

theorem pathFault?_eq_none_iff : pathFault? v = none ↔ IsPath v := by
  unfold IsPath
  cases v with
  | text s => simp [pathFault?]
  | _ => simp [pathFault?]

theorem problems_checkPath (key : Key) (item : Option Nat) (v : Value) :
    (checkPath key item v).problems = ((pathFault? v).map (Problem.mk key item)).toList := by
  cases v with
  | text s =>
    rw [checkPath, pathFault?]
    by_cases hs : Text.trimmed s = ""
    · rw [if_pos hs, if_pos (trimmed_eq_empty_iff.1 hs)]
      rfl
    · rw [if_neg hs, if_neg (mt trimmed_eq_empty_iff.2 hs)]
      rfl
  | _ => rfl

/-- With a list of paths, every item is reported that is none, with its position. -/
theorem problems_checkPaths (key : Key) (items : List Value) :
    (checkPaths key (.list items)).problems =
      items.zipIdx.filterMap fun e => (pathFault? e.1).map (Problem.mk key (some e.2)) := by
  rw [checkPaths, Checked.problems_all, List.flatMap_map, List.filterMap_eq_flatMap_toList]
  simp only [problems_checkPath]

theorem problems_checkPaths_eq_nil_iff : (checkPaths key v).problems = [] ↔ IsPathList v := by
  cases v with
  | list items =>
    have hitems : items.zipIdx.map Prod.fst = items := List.zipIdx_map_fst 0 items
    have hlist : IsPathList (.list items) ↔ ∀ item ∈ items, IsPath item := by simp [IsPathList]
    rw [problems_checkPaths, List.filterMap_eq_nil_iff, hlist, ← hitems, List.forall_mem_map, hitems]
    simp only [Option.map_eq_none_iff, pathFault?_eq_none_iff]
  | _ => simp [checkPaths, faulty, Checked.problems, IsPathList]

theorem problems_checkScanRoots_eq_nil_iff :
    (checkScanRoots v).problems = [] ↔ IsPathList v ∧ v ≠ .list [] := by
  unfold checkScanRoots
  split
  · simp [faulty, Checked.problems]
  · next hv => rw [problems_checkPaths_eq_nil_iff, and_iff_left hv]

theorem isExtension_iff {s : String} : isExtension s = true ↔
    ∃ cs, cs ≠ [] ∧ s.toList = '.' :: cs ∧ ∀ c ∈ cs, c.isAlphanum = true := by
  unfold isExtension
  split
  · next cs hs => simp [hs]
  · next hs =>
    simp only [Bool.false_eq_true, false_iff]
    rintro ⟨cs, -, h, -⟩
    exact hs cs h

theorem problems_checkExtension_eq_nil_iff : (checkExtension v).problems = [] ↔ IsExtension v := by
  rw [(explains_checkExtension v).problems_eq_nil_iff, IsExtension]
  simp only [checkExtension_eq_fine, isExtension_iff]

theorem problems_checkFileName_eq_nil_iff : (checkFileName v).problems = [] ↔ IsFileName v := by
  rw [(explains_checkFileName v).problems_eq_nil_iff, IsFileName]
  simp only [checkFileName_eq_fine]

theorem problems_checkZone_eq_nil_iff : (checkZone v).problems = [] ↔ IsZone v := by
  rw [(explains_checkZone v).problems_eq_nil_iff, IsZone]
  simp [checkZone_eq_fine, Option.exists]

/-- A check finds nothing if the value obeys the rule, and only then. -/
theorem found_eq_nil_iff : found key v = [] ↔ Obeys key v := by
  have hpath : ∀ key, (checkPath key none v).problems = [] ↔ IsPath v := by
    intro key
    rw [problems_checkPath, Option.toList_eq_nil_iff, Option.map_eq_none_iff,
      pathFault?_eq_none_iff]
  cases key with
  | scanRoots => exact problems_checkScanRoots_eq_nil_iff
  | controllerDirs => exact problems_checkPaths_eq_nil_iff
  | excludedFiles => exact problems_checkPaths_eq_nil_iff
  | sourceExtension => exact problems_checkExtension_eq_nil_iff
  | routesFileName => exact problems_checkFileName_eq_nil_iff
  | timeZone => exact problems_checkZone_eq_nil_iff
  | _ => exact hpath _

/-! ### What a load reports -/

/-- The problems that a load reports, in words; one that succeeds reports none. -/
def reported : Except (List Problem) Settings → List String
  | .ok _ => []
  | .error problems => problems.map Problem.text

theorem reported_load (workingDir : String) (env : Environment) (given : Given) :
    reported (load workingDir env given) =
      Key.all.flatMap fun key => (found key (raw workingDir env given key)).map Problem.text := by
  have hproblems := problems_check (raw workingDir env given)
  have hreported : reported (load workingDir env given) =
      (check (raw workingDir env given)).problems.map Problem.text := by
    unfold load
    cases check (raw workingDir env given) <;> rfl
  rw [hreported, hproblems, List.map_flatMap]

/-- A load fails if some value breaks its rule, and only then. -/
theorem load_eq_error_iff : (∃ problems, load workingDir env given = .error problems) ↔
    ∃ key, ¬ Obeys key (raw workingDir env given key) := by
  have hall : ∀ key : Key, key ∈ Key.all := by
    intro key
    cases key <;> decide
  have hproblems : (∃ problems, load workingDir env given = .error problems) ↔
      (check (raw workingDir env given)).problems ≠ [] := by
    rw [ne_eq, (explains_check (raw workingDir env given)).problems_eq_nil_iff]
    unfold load
    cases check (raw workingDir env given) with
    | fine s => simp
    | faulty problems => simp
  rw [hproblems, problems_check, ne_eq, List.flatMap_eq_nil_iff]
  simp only [found_eq_nil_iff, hall, forall_const, not_forall]

/-- A load in which a setting has a value, and all other settings obey their rules. -/
def IsLone (key : Key) (v : Value) (run : Except (List Problem) Settings) : Prop :=
  ∃ workingDir env given, run = load workingDir env given ∧ raw workingDir env given key = v ∧
    ∀ other, other ≠ key → Obeys other (raw workingDir env given other)

/-- What a load reports in which all other settings obey their rules is on the one setting. -/
theorem IsLone.reported_eq (h : IsLone key v run) :
    reported run = (found key v).map Problem.text := by
  obtain ⟨workingDir, env, given, rfl, rfl, hothers⟩ := h
  have hnodup : Key.all.Nodup := by decide
  have hmem : key ∈ Key.all := by cases key <;> decide
  rw [reported_load]
  refine flatMap_eq_of_unique hnodup hmem fun other hne => ?_
  rw [found_eq_nil_iff.2 (hothers other hne), List.map_nil]

/-- Standard values obey the rules, wherever a run starts. -/
theorem obeys_standard (h : ¬ Text.IsMargin workingDir.toList) (key : Key) :
    Obeys key (key.standard workingDir) := by
  cases key with
  | rootDir => exact ⟨workingDir, rfl, h⟩
  | _ =>
    refine found_eq_nil_iff.1 ?_
    simp only [Key.standard]
    decide +kernel

theorem standard_ne_null (h : key ≠ .timeZone) : key.standard workingDir ≠ .null := by
  cases key with
  | timeZone => exact absurd rfl h
  | _ => exact Value.noConfusion

/-- Apart from the time zone, no setting has null for its value. -/
theorem raw_ne_null (h : key ≠ .timeZone) : raw workingDir env given key ≠ .null := by
  have hgiven : givenValue? given key ≠ some .null := by
    unfold givenValue?
    split
    · simp [h]
    · next hv => exact hv
  have henv : environmentValue? env key ≠ some .null := by
    unfold environmentValue?
    intro hnull
    obtain ⟨s, -, hs⟩ := Option.map_eq_some_iff.1 hnull
    split at hs <;> cases hs
  unfold raw
  cases hv : givenValue? given key with
  | some v => simpa [hv] using hgiven
  | none =>
    cases hw : environmentValue? env key with
    | some w => simpa [hw] using henv
    | none => exact standard_ne_null h

/-- A value that is given alone stands among standard values. -/
theorem raw_single (h : v = .null → key = .timeZone) (other : Key) :
    raw workingDir [] [(key, v)] other = if other = key then v else other.standard workingDir := by
  have henv : environmentValue? [] other = none := rfl
  unfold raw
  rw [henv]
  by_cases hother : other = key
  · subst hother
    have hgiven : givenValue? [(other, v)] other = some v := by
      have hget : Given.get? other [(other, v)] = some v := if_pos rfl
      unfold givenValue?
      rw [hget]
      split
      · next hnull =>
        have hnull := Option.some.inj hnull
        rw [if_pos (h hnull), hnull]
      · rfl
    rw [hgiven, if_pos rfl]
    rfl
  · have hget : Given.get? other [(key, v)] = none := if_neg (Ne.symm hother)
    have hgiven : givenValue? [(key, v)] other = none := by
      unfold givenValue?
      rw [hget]
    rw [hgiven, if_neg hother]
    rfl

/-- Whatever value a setting has in a load, there is a load in which it alone has it. -/
theorem isLone_single (workingDir : String) (env : Environment) (given : Given) (key : Key) :
    IsLone key (raw workingDir env given key)
      (load "/" [] [(key, raw workingDir env given key)]) := by
  have hnull : raw workingDir env given key = .null → key = .timeZone :=
    fun hnull => of_not_not fun hkey => raw_ne_null hkey hnull
  refine ⟨"/", [], _, rfl, ?_, fun other hne => ?_⟩
  · rw [raw_single hnull, if_pos rfl]
  · rw [raw_single hnull, if_neg hne]
    exact obeys_standard (by decide) other

/-- In a list of paths, every item is reported that is none, with its position. -/
theorem IsLone.reported_list (h : IsLone key (.list items) run) (hlist : key.isList = true)
    (hitems : key = .scanRoots → items ≠ []) :
    reported run = items.zipIdx.filterMap fun e => (pathFault? e.1).map fun wrong =>
      key.name ++ "." ++ toString e.2 ++ ": " ++ wrong.text := by
  have hfound : found key (.list items) = (checkPaths key (.list items)).problems := by
    cases key with
    | scanRoots =>
      obtain ⟨item, items, rfl⟩ := List.exists_cons_of_ne_nil (hitems rfl)
      rfl
    | controllerDirs => rfl
    | excludedFiles => rfl
    | _ => cases hlist
  have htext : ∀ i, Problem.text ∘ Problem.mk key (some i) = fun wrong =>
      key.name ++ "." ++ toString i ++ ": " ++ wrong.text := by
    intro i
    funext wrong
    show key.name ++ ("." ++ toString i) ++ ": " ++ wrong.text = _
    rw [← String.append_assoc]
  rw [h.reported_eq, hfound, problems_checkPaths, List.map_filterMap]
  simp only [Option.map_map, htext]

/-- Values of which most break a rule, one of them a list with two bad items. -/
def faultyGiven : Given := [
  (.rootDir, .text " "), (.scanRoots, .list []),
  (.controllerDirs, .list [.text "c", .null, .text "\t"]), (.sourceExtension, .text "php"),
  (.timeZone, .bool true)]

/-- An environment in which another one does. -/
def faultyEnv : Environment := [("API_DOCS_ROUTES_FILE", "a/b.php")]

end ApiReport.Settings
