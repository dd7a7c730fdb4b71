import ApiReport.Proofs.Path.Spelling
import ApiReport.Proofs.Outcome

/-!
# Loading settings

Settings are loaded if every one of them passes its own check, and then each is what its check has
left, with paths taken from the root directory. A path passes if something is left of it without the
blanks around it. So a list of paths may be spelled in another way, as long as no entry is blank and
each leads where it did: the settings loaded are the same.

Key definitions: `Settings.Accepts`, `Settings.SamePaths`.
Key theorems: `Settings.load_eq_ok`, `Settings.checkPaths_eq_fine`, `Settings.checkZone_eq_fine`,
`Settings.load_of_samePaths`.
-/
namespace ApiReport.Settings

namespace Checked

variable {α β : Type}

theorem apply_eq_fine {f : Checked (α → β)} {a : Checked α} {b : β} :
    f.apply a = .fine b ↔ ∃ g x, f = .fine g ∧ a = .fine x ∧ g x = b := by
  cases f with
  | fine g =>
    cases a with
    | fine x => simp [apply]
    | faulty problems => simp [apply]
  | faulty problems => cases a <;> simp [apply]

theorem ite_fine_eq_fine {p : Prop} [Decidable p] {a b : α} {problems : List Problem} :
    (if p then fine a else faulty problems) = fine b ↔ p ∧ a = b := by
  split <;> simp [*]

theorem ite_faulty_eq_fine {p : Prop} [Decidable p] {c : Checked α} {b : α}
    {problems : List Problem} : (if p then faulty problems else c) = fine b ↔ ¬ p ∧ c = fine b := by
  split <;> simp [*]

/-- A list passes if every item does. -/
theorem all_eq_fine : ∀ {cs : List (Checked α)} {as : List α},
    all cs = .fine as ↔ cs.Forall₂ (fun c a => c = .fine a) as
  | [], as => by
    rw [all, fine.injEq, List.forall₂_nil_left_iff]
    exact eq_comm
  | c :: cs, as => by
    rw [all, apply_eq_fine, List.forall₂_cons_left_iff]
    constructor
    · rintro ⟨g, rest, hg, hrest, rfl⟩
      obtain ⟨f, a, hf, ha, rfl⟩ := apply_eq_fine.1 hg
      rw [← fine.inj hf]
      exact ⟨a, rest, ha, all_eq_fine.1 hrest, rfl⟩
    · rintro ⟨a, rest, ha, hrest, rfl⟩
      exact ⟨_, rest, apply_eq_fine.2 ⟨_, a, rfl, ha, rfl⟩, all_eq_fine.2 hrest, rfl⟩

end Checked

/-! ### Paths that pass -/

theorem checkPath_eq_fine {key : Key} {item : Option Nat} {v : Value} {path : String} :
    checkPath key item v = .fine path ↔
      ∃ s, v = .text s ∧ Text.trimmed s ≠ "" ∧ path = Text.trimmed s := by
  cases v with
  | text s =>
    rw [checkPath]
    by_cases hs : Text.trimmed s = ""
    · simp [hs, faulty]
    · rw [if_neg hs, Checked.fine.injEq]
      constructor
      · rintro rfl
        exact ⟨s, rfl, hs, rfl⟩
      · rintro ⟨_, hv, -, rfl⟩
        rw [Value.text.inj hv]
  | _ => simp [checkPath, faulty]

theorem forall₂_text_iff {items : List Value} {paths : List String} :
    items.Forall₂ (fun v path => ∃ s, v = .text s ∧ Text.trimmed s ≠ "" ∧ path = Text.trimmed s)
        paths ↔
      ∃ entries : List String, items = entries.map Value.text ∧
        (∀ e ∈ entries, Text.trimmed e ≠ "") ∧ paths = entries.map Text.trimmed := by
  constructor
  · intro h
    induction h with
    | nil => exact ⟨[], rfl, by simp, rfl⟩
    | cons hv _ ih =>
      obtain ⟨s, rfl, hs, rfl⟩ := hv
      obtain ⟨entries, rfl, hentries, rfl⟩ := ih
      exact ⟨s :: entries, rfl, List.forall_mem_cons.2 ⟨hs, hentries⟩, rfl⟩
  · rintro ⟨entries, rfl, hentries, rfl⟩
    rw [List.forall₂_map_left_iff, List.forall₂_map_right_iff]
    exact List.forall₂_same.2 fun e he => ⟨e, rfl, hentries e he, rfl⟩

/-- A list of paths passes if its items are texts that are not blank, whatever their positions. -/
theorem checkPaths_eq_fine {key : Key} {v : Value} {paths : List String} :
    checkPaths key v = .fine paths ↔
      ∃ entries : List String, v = .list (entries.map Value.text) ∧
        (∀ e ∈ entries, Text.trimmed e ≠ "") ∧ paths = entries.map Text.trimmed := by
  cases v with
  | list items =>
    have hitems : items.zipIdx.map Prod.fst = items := List.zipIdx_map_fst 0 items
    rw [checkPaths, Checked.all_eq_fine, List.forall₂_map_left_iff]
    simp only [checkPath_eq_fine, Value.list.injEq]
    rw [← forall₂_text_iff]
    nth_rewrite 2 [← hitems]
    rw [List.forall₂_map_left_iff]
  | _ => simp [checkPaths, faulty]

theorem checkScanRoots_eq_fine {v : Value} {paths : List String} :
    checkScanRoots v = .fine paths ↔ checkPaths .scanRoots v = .fine paths ∧ paths ≠ [] := by
  have hnone : checkPaths .scanRoots (.list []) = .fine [] := rfl
  unfold checkScanRoots
  split
  · rw [hnone]
    constructor
    · intro h
      cases h
    · rintro ⟨h, hne⟩
      exact (hne (Checked.fine.inj h).symm).elim
  · next hv =>
    refine (and_iff_left_of_imp fun h hpaths => ?_).symm
    obtain ⟨entries, rfl, -, rfl⟩ := checkPaths_eq_fine.1 h
    rw [List.map_eq_nil_iff] at hpaths
    subst hpaths
    exact hv rfl

/-! ### Other values that pass -/

theorem checkExtension_eq_fine {v : Value} {s : String} :
    checkExtension v = .fine s ↔ v = .text s ∧ isExtension s = true := by
  cases v with
  | text s' =>
    rw [checkExtension, faulty, Checked.ite_fine_eq_fine, Value.text.injEq, and_comm]
    exact and_congr_right fun hs => hs ▸ Iff.rfl
  | _ => simp [checkExtension, faulty]

theorem checkFileName_eq_fine {v : Value} {s : String} :
    checkFileName v = .fine s ↔ v = .text s ∧ s ≠ "" ∧ '/' ∉ s.toList ∧ '\\' ∉ s.toList := by
  cases v with
  | text s' =>
    have hslash : ¬ (s'.toList.any fun c => c == '/' || c == '\\') = true ↔
        '/' ∉ s'.toList ∧ '\\' ∉ s'.toList := by
      simp only [List.any_eq_true, Bool.or_eq_true, beq_iff_eq, and_or_left, exists_or,
        exists_eq_right, not_or]
    rw [checkFileName, faulty, faulty, Checked.ite_faulty_eq_fine, Checked.ite_faulty_eq_fine, hslash,
      Checked.fine.injEq, Value.text.injEq]
    constructor
    · rintro ⟨hempty, hbare, rfl⟩
      exact ⟨rfl, hempty, hbare⟩
    · rintro ⟨rfl, hempty, hbare⟩
      exact ⟨hempty, hbare, rfl⟩
  | _ => simp [checkFileName, faulty]

theorem checkZone_eq_fine {v : Value} {zone : Option String} :
    checkZone v = .fine zone ↔ v = (zone.map Value.text).getD .null ∧
      ∀ s ∈ zone, (Calendar.Zone.named? s).isSome = true := by
  cases v with
  | null => cases zone <;> simp [checkZone]
  | text s =>
    rw [checkZone, faulty, Checked.ite_fine_eq_fine]
    cases zone with
    | none => simp
    | some s' =>
      rw [Option.some.injEq, Option.map_some, Option.getD_some, Value.text.injEq, and_comm]
      exact and_congr_right fun hs => by simp [hs]
  | _ => cases zone <;> simp [checkZone, faulty]

/-! ### Settings that pass -/

/-- Each setting is what is left of its value when that has passed its check. -/
structure Accepts (raw : Key → Value) (s : Settings) : Prop where
  rootDir : checkPath .rootDir none (raw .rootDir) = .fine s.rootDir
  specPath : checkPath .specPath none (raw .specPath) = .fine s.specPath
  outputPath : checkPath .outputPath none (raw .outputPath) = .fine s.outputPath
  codeOutputPath : checkPath .codeOutputPath none (raw .codeOutputPath) = .fine s.codeOutputPath
  scanRoots : checkScanRoots (raw .scanRoots) = .fine s.scanRoots
  controllerDirs : checkPaths .controllerDirs (raw .controllerDirs) = .fine s.controllerDirs
  excludedFiles : checkPaths .excludedFiles (raw .excludedFiles) = .fine s.excludedFiles
  sourceExtension : checkExtension (raw .sourceExtension) = .fine s.sourceExtension
  routesFileName : checkFileName (raw .routesFileName) = .fine s.routesFileName
  timeZone : checkZone (raw .timeZone) = .fine s.timeZone

theorem check_eq_fine {raw : Key → Value} {s : Settings} :
    check raw = .fine s ↔ Accepts raw s := by
  constructor
  · intro h₀
    obtain ⟨_, timeZone, h₁, htimeZone, rfl⟩ := Checked.apply_eq_fine.1 h₀
    obtain ⟨_, routesFileName, h₂, hroutesFileName, rfl⟩ := Checked.apply_eq_fine.1 h₁
    obtain ⟨_, sourceExtension, h₃, hsourceExtension, rfl⟩ := Checked.apply_eq_fine.1 h₂
    obtain ⟨_, excludedFiles, h₄, hexcludedFiles, rfl⟩ := Checked.apply_eq_fine.1 h₃
    obtain ⟨_, controllerDirs, h₅, hcontrollerDirs, rfl⟩ := Checked.apply_eq_fine.1 h₄
    obtain ⟨_, scanRoots, h₆, hscanRoots, rfl⟩ := Checked.apply_eq_fine.1 h₅
    obtain ⟨_, codeOutputPath, h₇, hcodeOutputPath, rfl⟩ := Checked.apply_eq_fine.1 h₆
    obtain ⟨_, outputPath, h₈, houtputPath, rfl⟩ := Checked.apply_eq_fine.1 h₇
    obtain ⟨_, specPath, h₉, hspecPath, rfl⟩ := Checked.apply_eq_fine.1 h₈
    obtain ⟨_, rootDir, hmk, hrootDir, rfl⟩ := Checked.apply_eq_fine.1 h₉
    rw [← Checked.fine.inj hmk]
    exact ⟨hrootDir, hspecPath, houtputPath, hcodeOutputPath, hscanRoots, hcontrollerDirs,
      hexcludedFiles, hsourceExtension, hroutesFileName, htimeZone⟩
  · intro h
    rw [check, h.rootDir, h.specPath, h.outputPath, h.codeOutputPath, h.scanRoots,
      h.controllerDirs, h.excludedFiles, h.sourceExtension, h.routesFileName, h.timeZone]
    rfl

theorem load_eq_ok {workingDir : String} {env : Environment} {given : Given} {c : Settings} :
    load workingDir env given = .ok c ↔
      ∃ s, Accepts (raw workingDir env given) s ∧ s.resolve workingDir = c := by
  unfold load
  simp only [← check_eq_fine]
  cases check (raw workingDir env given) with
  | fine s => simp
  | faulty problems => simp

/-! ### Lists of paths spelled in another way -/

/-- Two lists of texts that lead to the same paths one by one, from a directory, and no entry of the
second one is blank. -/
def SamePaths (directory : String) (v w : Value) : Prop :=
  ∃ entries entries' : List String,
    v = .list (entries.map Value.text) ∧ w = .list (entries'.map Value.text) ∧
    entries.Forall₂ (fun e e' => Text.trimmed e' ≠ "" ∧
      Path.resolve directory (Text.trimmed e) = Path.resolve directory (Text.trimmed e')) entries'

theorem SamePaths.of_respells {directory : String} {entries entries' : List String}
    (h : entries.Forall₂ (fun e e' => Text.trimmed e' ≠ "" ∧
      Path.Respells directory (Text.trimmed e) (Text.trimmed e')) entries') :
    SamePaths directory (Key.textList entries) (Key.textList entries') :=
  ⟨entries, entries', rfl, rfl,
    h.imp fun _ _ he => ⟨he.1, Path.resolve_eq_of_respells he.2⟩⟩

/-- A list of paths that passes also passes when spelled in another way, and is resolved to the same
paths. -/
theorem SamePaths.checkPaths {directory : String} {v w : Value} (h : SamePaths directory v w)
    {key : Key} {paths : List String} (hpaths : checkPaths key v = .fine paths) :
    ∃ paths', Settings.checkPaths key w = .fine paths' ∧
      paths.map (Path.resolve directory) = paths'.map (Path.resolve directory) := by
  obtain ⟨entries, entries', rfl, rfl, hsame⟩ := h
  obtain ⟨es, hes, -, rfl⟩ := checkPaths_eq_fine.1 hpaths
  have htext : Function.Injective Value.text := fun _ _ => Value.text.inj
  have hes : entries = es := htext.list_map (Value.list.inj hes)
  subst hes
  have hnotBlank : ∀ e' ∈ entries', Text.trimmed e' ≠ "" := by
    intro e' he'
    obtain ⟨e, -, hne, -⟩ := exists_of_forall₂ hsame.flip he'
    exact hne
  refine ⟨_, checkPaths_eq_fine.2 ⟨entries', rfl, hnotBlank, rfl⟩, ?_⟩
  rw [List.map_map, List.map_map]
  exact map_eq_of_forall₂ (fun e e' he => he.2) hsame

/-- **Spelling does not matter.** Settings that have been loaded are loaded again if scan roots and
excluded files are given in another way that leads to the same paths, and all else as it was. -/
theorem load_of_samePaths {workingDir : String} {env env' : Environment} {given given' : Given}
    {c : Settings} (h : load workingDir env given = .ok c)
    (hsame : ∀ key, key ≠ .scanRoots → key ≠ .excludedFiles →
      raw workingDir env' given' key = raw workingDir env given key)
    (hroots : SamePaths c.rootDir (raw workingDir env given .scanRoots)
      (raw workingDir env' given' .scanRoots))
    (hexcluded : SamePaths c.rootDir (raw workingDir env given .excludedFiles)
      (raw workingDir env' given' .excludedFiles)) :
    load workingDir env' given' = .ok c := by
  obtain ⟨s, hs, rfl⟩ := load_eq_ok.1 h
  obtain ⟨hscanRoots, hne⟩ := checkScanRoots_eq_fine.1 hs.scanRoots
  obtain ⟨roots, hroots, hrootPaths⟩ := hroots.checkPaths hscanRoots
  obtain ⟨excluded, hexcluded, hexcludedPaths⟩ := hexcluded.checkPaths hs.excludedFiles
  have hroots : checkScanRoots (raw workingDir env' given' .scanRoots) = .fine roots := by
    refine checkScanRoots_eq_fine.2 ⟨hroots, ?_⟩
    rintro rfl
    exact hne (List.map_eq_nil_iff.1 hrootPaths)
  refine load_eq_ok.2 ⟨{ s with scanRoots := roots, excludedFiles := excluded }, ?_, ?_⟩
  · refine ⟨?_, ?_, ?_, ?_, hroots, ?_, hexcluded, ?_, ?_, ?_⟩
    · rw [hsame .rootDir (by decide) (by decide), hs.rootDir]
    · rw [hsame .specPath (by decide) (by decide), hs.specPath]
    · rw [hsame .outputPath (by decide) (by decide), hs.outputPath]
    · rw [hsame .codeOutputPath (by decide) (by decide), hs.codeOutputPath]
    · rw [hsame .controllerDirs (by decide) (by decide), hs.controllerDirs]
    · rw [hsame .sourceExtension (by decide) (by decide), hs.sourceExtension]
    · rw [hsame .routesFileName (by decide) (by decide), hs.routesFileName]
    · rw [hsame .timeZone (by decide) (by decide), hs.timeZone]
  · have hrootPaths : s.scanRoots.map (Path.resolve (Path.resolve workingDir s.rootDir)) =
        roots.map (Path.resolve (Path.resolve workingDir s.rootDir)) := hrootPaths
    have hexcludedPaths : s.excludedFiles.map (Path.resolve (Path.resolve workingDir s.rootDir)) =
        excluded.map (Path.resolve (Path.resolve workingDir s.rootDir)) := hexcludedPaths
    unfold resolve
    dsimp only
    rw [hrootPaths, hexcludedPaths]

end ApiReport.Settings
