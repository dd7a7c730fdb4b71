import ApiReport.Proofs.Path.Trimmed
import ApiReport.Proofs.Settings.Load

/-!
# Loading settings again

Settings that have been loaded can be given as they are: each of them is found before the
environment and the standard values are asked, empty lists and the zone of the host included, and
passes its check once more. All that the second load changes is that paths lose the blanks at their
ends.

Key definitions: `Settings.paths`, `Settings.trimmed`.
Key theorems: `Settings.get?_given`, `Settings.accepts_given`, `Settings.resolve_trimmed_eq_iff`,
`Settings.load_given`.
-/
namespace ApiReport.Settings

variable {c s : Settings} {raw₀ : Key → Value} {workingDir : String}

def paths (s : Settings) : List String :=
  s.rootDir :: s.specPath :: s.outputPath :: s.codeOutputPath ::
    (s.scanRoots ++ s.controllerDirs ++ s.excludedFiles)

/-- Settings with every path trimmed. -/
def trimmed (s : Settings) : Settings :=
  { s with
    rootDir := Text.trimmed s.rootDir
    specPath := Text.trimmed s.specPath
    outputPath := Text.trimmed s.outputPath
    codeOutputPath := Text.trimmed s.codeOutputPath
    scanRoots := s.scanRoots.map Text.trimmed
    controllerDirs := s.controllerDirs.map Text.trimmed
    excludedFiles := s.excludedFiles.map Text.trimmed }

/-! ### What is given comes first -/

/-- Settings that are given shadow every environment and all standard values. -/
theorem get?_given (c : Settings) (workingDir : String) (env : Environment) (key : Key) :
    c.given.get? key = some (raw workingDir env c.given key) := by
  cases key with
  | timeZone =>
    obtain ⟨_, _, _, _, _, _, _, _, _, timeZone⟩ := c
    cases timeZone <;> rfl
  | _ => rfl

/-! ### What has passed passes again -/

theorem checkPath_text {key : Key} {path : String} (h : Path.IsNormal path) :
    checkPath key none (.text path) = .fine (Text.trimmed path) :=
  checkPath_eq_fine.2 ⟨path, rfl, Path.trimmed_ne_empty h.isAbsolute, rfl⟩

theorem checkPaths_textList {key : Key} {paths : List String}
    (h : ∀ p ∈ paths, Path.IsNormal p) :
    checkPaths key (Key.textList paths) = .fine (paths.map Text.trimmed) :=
  checkPaths_eq_fine.2 ⟨paths, rfl, fun p hp => Path.trimmed_ne_empty (h p hp).isAbsolute, rfl⟩

theorem checkExtension_again {v : Value} {ending : String} (h : checkExtension v = .fine ending) :
    checkExtension (.text ending) = .fine ending :=
  checkExtension_eq_fine.2 ⟨rfl, (checkExtension_eq_fine.1 h).2⟩

theorem checkFileName_again {v : Value} {name : String} (h : checkFileName v = .fine name) :
    checkFileName (.text name) = .fine name :=
  checkFileName_eq_fine.2 ⟨rfl, (checkFileName_eq_fine.1 h).2⟩

theorem checkZone_again {v : Value} {zone : Option String} (h : checkZone v = .fine zone) :
    checkZone ((zone.map Value.text).getD .null) = .fine zone :=
  checkZone_eq_fine.2 ⟨rfl, (checkZone_eq_fine.1 h).2⟩

/-- Settings that have been loaded pass all checks when they are given, and paths are trimmed. -/
theorem accepts_given (h : Accepts raw₀ s) (workingDir workingDir' : String) (env : Environment) :
    Accepts (raw workingDir' env (s.resolve workingDir).given) (s.resolve workingDir).trimmed := by
  have hnormal := resolve_isNormal workingDir s
  have hgiven : ∀ {key v}, (s.resolve workingDir).given.get? key = some v →
      raw workingDir' env (s.resolve workingDir).given key = v := by
    intro key v hv
    rw [get?_given _ workingDir' env] at hv
    exact Option.some.inj hv
  have hroots : (s.resolve workingDir).trimmed.scanRoots ≠ [] := by
    have hne := (checkScanRoots_eq_fine.1 h.scanRoots).2
    simpa [trimmed, resolve] using hne
  refine ⟨?_, ?_, ?_, ?_, ?_, ?_, ?_, ?_, ?_, ?_⟩
  · rw [hgiven rfl]; exact checkPath_text hnormal.rootDir
  · rw [hgiven rfl]; exact checkPath_text hnormal.specPath
  · rw [hgiven rfl]; exact checkPath_text hnormal.outputPath
  · rw [hgiven rfl]; exact checkPath_text hnormal.codeOutputPath
  · rw [hgiven rfl]
    exact checkScanRoots_eq_fine.2 ⟨checkPaths_textList hnormal.scanRoots, hroots⟩
  · rw [hgiven rfl]; exact checkPaths_textList hnormal.controllerDirs
  · rw [hgiven rfl]; exact checkPaths_textList hnormal.excludedFiles
  · rw [hgiven rfl]; exact checkExtension_again h.sourceExtension
  · rw [hgiven rfl]; exact checkFileName_again h.routesFileName
  · rw [hgiven rfl]; exact checkZone_again h.timeZone

/-! ### What changes -/

theorem map_resolve_trimmed_eq_iff {ps : List String} (h : ∀ p ∈ ps, Path.IsNormal p)
    (base : String) : (ps.map Text.trimmed).map (Path.resolve base) = ps ↔
      ∀ p ∈ ps, Text.endsInBlank p.toList = false := by
  have hself := List.map_inj_left (l := ps) (f := Path.resolve base ∘ Text.trimmed) (g := id)
  rw [List.map_id] at hself
  rw [List.map_map, hself]
  exact forall₂_congr fun p hp => Path.resolve_trimmed_eq_iff (h p hp) base

theorem resolve_trimmed_eq_iff (h : c.IsNormal) (workingDir : String) :
    c.trimmed.resolve workingDir = c ↔ ∀ p ∈ c.paths, Text.endsInBlank p.toList = false := by
  let rootDir := Path.resolve workingDir (Text.trimmed c.rootDir)
  have hfields : c.trimmed.resolve workingDir = c ↔ rootDir = c.rootDir ∧
      Path.resolve rootDir (Text.trimmed c.specPath) = c.specPath ∧
      Path.resolve rootDir (Text.trimmed c.outputPath) = c.outputPath ∧
      Path.resolve rootDir (Text.trimmed c.codeOutputPath) = c.codeOutputPath ∧
      (c.scanRoots.map Text.trimmed).map (Path.resolve rootDir) = c.scanRoots ∧
      (c.controllerDirs.map Text.trimmed).map (Path.resolve rootDir) = c.controllerDirs ∧
      (c.excludedFiles.map Text.trimmed).map (Path.resolve rootDir) = c.excludedFiles := by
    obtain ⟨⟩ := c
    simp only [resolve, trimmed, mk.injEq, and_true, rootDir]
  rw [hfields, Path.resolve_trimmed_eq_iff h.rootDir, Path.resolve_trimmed_eq_iff h.specPath,
    Path.resolve_trimmed_eq_iff h.outputPath, Path.resolve_trimmed_eq_iff h.codeOutputPath,
    map_resolve_trimmed_eq_iff h.scanRoots, map_resolve_trimmed_eq_iff h.controllerDirs,
    map_resolve_trimmed_eq_iff h.excludedFiles, paths]
  simp only [List.forall_mem_append, List.forall_mem_cons, and_assoc]

/-- **Loaded settings stay as they are.** Whatever settings have been loaded, their paths are
normal, and given again they shadow every environment and all standard values. They are then loaded
as they are if none of their paths ends in a blank, and only then. -/
theorem load_given {env : Environment} {given : Given}
    (h : load workingDir env given = .ok c) (workingDir' : String) (env' : Environment) :
    c.IsNormal ∧ (∀ key, c.given.get? key = some (raw workingDir' env' c.given key)) ∧
      (load workingDir' env' c.given = .ok c ↔
        ∀ p ∈ c.paths, Text.endsInBlank p.toList = false) := by
  obtain ⟨s, hs, rfl⟩ := load_eq_ok.1 h
  have hnormal := resolve_isNormal workingDir s
  refine ⟨hnormal, get?_given _ workingDir' env', ?_⟩
  have hload := load_eq_ok.2 ⟨_, accepts_given hs workingDir workingDir' env', rfl⟩
  rw [hload, Except.ok.injEq]
  exact resolve_trimmed_eq_iff hnormal workingDir'

/-! ### A sample -/

/-- Settings of which two lists are empty. -/
def emptied (specPath : String) : Settings where
  rootDir := "/p"
  specPath := specPath
  outputPath := "/p/docs/architecture/API_DETAILS.md"
  codeOutputPath := "/p/docs/architecture/API_DETAILS_FROM_CODE.md"
  scanRoots := ["/p/src"]
  controllerDirs := []
  excludedFiles := []
  sourceExtension := ".php"
  routesFileName := "routes.php"
  timeZone := none

/-- The lists and the zone of the host given for a run, and a path to the description. -/
def emptyGiven (specPath : String) : Given := [
  (.specPath, .text specPath), (.scanRoots, Key.textList ["./src/"]), (.controllerDirs, .list []),
  (.excludedFiles, .list []), (.timeZone, .null)]

/-- An environment that has other values. -/
def otherEnv : Environment := [
  ("API_DOCS_ROOT", "/q"), ("API_DOCS_CONTROLLER_DIRS", "c"), ("API_DOCS_EXCLUDED_FILES", "A.php"),
  ("API_DOCS_TIME_ZONE", "Asia/Tokyo")]

/-- Empty lists and the zone of the host stay, and so does a path, unless its last name is blank. -/
theorem load_given_sample :
    load "/" [("API_DOCS_ROOT", " q/../p/ ")] (emptyGiven "a b/c.json") =
        .ok (emptied "/p/a b/c.json") ∧
      load "/w" otherEnv (emptied "/p/a b/c.json").given = .ok (emptied "/p/a b/c.json") ∧
      load "/" [("API_DOCS_ROOT", "/p")] (emptyGiven "a/ /.") = .ok (emptied "/p/a/ ") ∧
      load "/w" otherEnv (emptied "/p/a/ ").given ≠ .ok (emptied "/p/a/ ") := by
  have hclean : load "/" [("API_DOCS_ROOT", " q/../p/ ")] (emptyGiven "a b/c.json") =
      .ok (emptied "/p/a b/c.json") := by decide +kernel
  have hblank : load "/" [("API_DOCS_ROOT", "/p")] (emptyGiven "a/ /.") =
      .ok (emptied "/p/a/ ") := by decide +kernel
  refine ⟨hclean, (load_given hclean "/w" otherEnv).2.2.2 (by decide), hblank, ?_⟩
  rw [ne_eq, (load_given hblank "/w" otherEnv).2.2]
  decide

end ApiReport.Settings
