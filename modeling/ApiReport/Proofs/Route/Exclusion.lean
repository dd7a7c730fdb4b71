import ApiReport.Proofs.Route.Coverage
import ApiReport.Proofs.Settings.Load

/-!
# Excluded files

A file is excluded by its path, and paths are compared as texts. That is enough: the path of an
entry is normal once the settings are loaded, however the entry was written, and so is every path
that a search below a scan root gives. An excluded file is not scanned, whatever root leads to it,
and nothing it declares is reported.

Key definitions: `Route.IsExcluded`.
Key theorem: `Route.excluded_of_load`.
-/
namespace ApiReport.Route

/-- A path that one of the entries of a list of excluded files leads to. -/
def IsExcluded (rootDir : String) (entries : List String) (file : String) : Prop :=
  ∃ e ∈ entries, file = Path.resolve rootDir (Text.trimmed e)

/-- The excluded files of loaded settings are what the entries lead to. -/
theorem excludedFiles_of_load {workingDir : String} {env : Environment} {given : Settings.Given}
    {c : Settings} (h : Settings.load workingDir env given = .ok c) :
    ∃ entries : List String,
      Settings.raw workingDir env given .excludedFiles = .list (entries.map Value.text) ∧
      ∀ file, file ∈ c.excludedFiles ↔ IsExcluded c.rootDir entries file := by
  obtain ⟨s, hs, rfl⟩ := Settings.load_eq_ok.1 h
  obtain ⟨entries, hraw, -, hpaths⟩ := Settings.checkPaths_eq_fine.1 hs.excludedFiles
  refine ⟨entries, hraw, fun file => ?_⟩
  show file ∈ s.excludedFiles.map (Path.resolve (Path.resolve workingDir s.rootDir)) ↔ _
  rw [hpaths, List.map_map, List.mem_map]
  exact exists_congr fun e => and_congr_right fun _ => eq_comm

/-- What is found comes from files that are scanned. -/
theorem Survey.IsComplete.source_mem {t : FileTree} {s : Settings} {v : Survey}
    (h : v.IsComplete t s) {r : Route} (hr : r ∈ v.routes) : r.source ∈ v.files :=
  h.filesWithRoutes_subset r.source ((h.mem_filesWithRoutes r.source).2 ⟨r, hr, rfl⟩)

/-- **An exclusion works however it is spelled.** With settings that have been loaded, a survey of a
tree in which some scan root is a directory scans exactly the source files reached from scan roots
that no entry of the excluded files leads to, and no route comes from a file that one leads to. The
same settings are loaded if scan roots and excluded files are spelled in another way. -/
theorem excluded_of_load {workingDir : String} {env : Environment} {given : Settings.Given}
    {c : Settings} (h : Settings.load workingDir env given = .ok c) (t : FileTree)
    (hroot : ∃ root ∈ c.scanRoots, t.isDirectory root = true) :
    ∃ entries : List String,
      Settings.raw workingDir env given .excludedFiles = .list (entries.map Value.text) ∧
      (∃ v, Survey.ofTree t c = .ok v ∧
        (∀ file, file ∈ v.files ↔
          (∃ root ∈ c.scanRoots, t.HasSource c.sourceExtension root file) ∧
            ¬ IsExcluded c.rootDir entries file) ∧
        (∀ r ∈ v.routes, ¬ IsExcluded c.rootDir entries r.source) ∧
        ∀ file ∈ v.filesWithRoutes, ¬ IsExcluded c.rootDir entries file) ∧
      ∀ env' given',
        (∀ key, key ≠ .scanRoots → key ≠ .excludedFiles →
          Settings.raw workingDir env' given' key = Settings.raw workingDir env given key) →
        Settings.SamePaths c.rootDir (Settings.raw workingDir env given .scanRoots)
          (Settings.raw workingDir env' given' .scanRoots) →
        Settings.SamePaths c.rootDir (Settings.raw workingDir env given .excludedFiles)
          (Settings.raw workingDir env' given' .excludedFiles) →
        Settings.load workingDir env' given' = .ok c := by
  obtain ⟨entries, hraw, hexcluded⟩ := excludedFiles_of_load h
  have hnormal := (Settings.load_isNormal h).scanRoots
  obtain ⟨v, hv⟩ := Survey.exists_ofTree hroot hnormal
  have hcomplete := Survey.isComplete_of_ofTree hroot hv
  have hfiles : ∀ file, file ∈ v.files ↔
      (∃ root ∈ c.scanRoots, t.HasSource c.sourceExtension root file) ∧
        ¬ IsExcluded c.rootDir entries file := by
    intro file
    rw [← hexcluded file]
    exact (hcomplete.mem_files file).trans (isScanned_iff_isRead hnormal)
  refine ⟨entries, hraw, ⟨v, hv, hfiles, fun r hr => ?_, fun file hfile => ?_⟩, ?_⟩
  · exact ((hfiles r.source).1 (hcomplete.source_mem hr)).2
  · exact ((hfiles file).1 (hcomplete.filesWithRoutes_subset file hfile)).2
  · intro env' given' hsame hroots hexcluded
    exact Settings.load_of_samePaths h hsame hroots hexcluded

/-! ### A sample -/

/-- Scan roots one below the other, from the root directory. -/
def spelledEnv : Environment := [("API_DOCS_SCAN_ROOTS", "., src//")]

/-- The one source file of the sample excluded, from the root directory. -/
def spelledGiven : Settings.Given :=
  [(.excludedFiles, Settings.Key.textList [" ./docs/../src/A.php "])]

/-- The same scan roots and the same excluded file from the root. -/
def plainGiven : Settings.Given :=
  [(.scanRoots, Settings.Key.textList ["/p", "/p/src"]),
    (.excludedFiles, Settings.Key.textList ["/p/src/A.php"])]

/-- The settings that are loaded. -/
def excludingSettings : Settings :=
  { sampleSettings with
    specPath := "/p/docs/architecture/openapi.json"
    outputPath := "/p/docs/architecture/API_DETAILS.md"
    codeOutputPath := "/p/docs/architecture/API_DETAILS_FROM_CODE.md"
    scanRoots := ["/p", "/p/src"]
    controllerDirs := ["/p/backend/app/Controllers"]
    excludedFiles := ["/p/src/A.php"] }

/-- Nothing is scanned, whichever way the excluded file is spelled. -/
theorem excluded_of_load_sample :
    Settings.load "/p" spelledEnv spelledGiven = .ok excludingSettings ∧
      (∃ root ∈ excludingSettings.scanRoots, sampleTree.isDirectory root = true) ∧
      (∃ v, Survey.ofTree sampleTree excludingSettings = .ok v ∧
        sampleTree.HasSource ".php" "/p" "/p/src/A.php" ∧ "/p/src/A.php" ∉ v.files) ∧
      Settings.load "/p" [] plainGiven = .ok excludingSettings := by
  have hload : Settings.load "/p" spelledEnv spelledGiven = .ok excludingSettings := by
    decide +kernel
  have hroot : ∃ root ∈ excludingSettings.scanRoots, sampleTree.isDirectory root = true :=
    ⟨"/p", by decide, by decide +kernel⟩
  have hsource : sampleTree.HasSource ".php" "/p" "/p/src/A.php" := by
    have hpath : Path.child (Path.child "/p" "src") "A.php" = "/p/src/A.php" := by decide +kernel
    refine ⟨by decide +kernel, ["p"], by rfl, ?_⟩
    rw [← hpath]
    exact .down (by rfl) (.file (by rfl))
  obtain ⟨entries, hraw, ⟨v, hv, hfiles, -, -⟩, hspelled⟩ :=
    excluded_of_load hload sampleTree hroot
  have hentries : [" ./docs/../src/A.php "] = entries := by
    have htext : Function.Injective Value.text := fun _ _ => Value.text.inj
    exact htext.list_map (Value.list.inj hraw)
  have hexcluded : "/p/src/A.php" ∉ v.files := by
    intro hfile
    refine ((hfiles _).1 hfile).2 ⟨" ./docs/../src/A.php ", ?_, by decide +kernel⟩
    rw [← hentries]
    exact List.mem_singleton_self _
  have hplain : Settings.load "/p" [] plainGiven = .ok excludingSettings := by
    refine hspelled [] plainGiven (fun key hroots hfiles => ?_) ?_ ?_
    · cases key with
      | scanRoots => exact (hroots rfl).elim
      | excludedFiles => exact (hfiles rfl).elim
      | _ => rfl
    · exact ⟨[".", "src//"], ["/p", "/p/src"], rfl, rfl,
        .cons (by decide +kernel) (.cons (by decide +kernel) .nil)⟩
    · have hrespells : Path.Respells "/p" (Text.trimmed " ./docs/../src/A.php ")
          (Text.trimmed "/p/src/A.php") := by
        have hstay : Path.Respells "/p" "./docs/../src/A.php" "docs/../src/A.php" :=
          .stayAtStart (q := "docs/../src/A.php") (by decide)
        have hback : Path.Respells "/p" "docs/../src/A.php" "src/A.php" :=
          .backAtStart (n := "docs") (q := "src/A.php") (by decide) (by decide)
        have hroot : Path.Respells "/p" (Path.resolve "/p" "src/A.php") "src/A.php" := .fromRoot _
        have hresolve : Path.resolve "/p" "src/A.php" = "/p/src/A.php" := by decide +kernel
        rw [hresolve] at hroot
        exact hstay.trans (hback.trans hroot.symm)
      exact .of_respells (.cons ⟨by decide +kernel, hrespells⟩ .nil)
  exact ⟨hload, hroot, ⟨v, hv, hsource, hexcluded⟩, hplain⟩

end ApiReport.Route
