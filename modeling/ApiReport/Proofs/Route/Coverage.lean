import ApiReport.Proofs.FileTree.Reach
import ApiReport.Proofs.Generate.Recheck

/-!
# Controllers without routes

The controllers that a report names are the source files reached from a controller directory in
which no route was found: because they are not scanned, or because their text declares none. Both
searches give the same path to the same file, so that comparing paths is enough. The list is
strictly ascending, and so names each of them once.

Key definitions: `Route.IsController`, `Route.IsRead`, `Route.LacksRoutes`.
Key theorems: `Route.Survey.mem_filesWithRoutes_iff_read`, `Route.Coverage.ofTree_eq`,
`generateCode_withoutRoutes`.
-/
namespace ApiReport

namespace Route

variable {t : FileTree} {s : Settings} {file : String}

/-- A source file that is reached from a controller directory. -/
def IsController (t : FileTree) (s : Settings) (file : String) : Prop :=
  ∃ directory ∈ s.controllerDirs, t.HasSource s.sourceExtension directory file

/-- A source file that is reached from a scan root and not excluded. -/
def IsRead (t : FileTree) (s : Settings) (file : String) : Prop :=
  (∃ root ∈ s.scanRoots, t.HasSource s.sourceExtension root file) ∧ file ∉ s.excludedFiles

/-- A file whose text declares no route: no annotation does, and no registration if it is a routes
file. -/
def LacksRoutes (t : FileTree) (s : Settings) (file : String) : Prop :=
  ∃ bytes, t.read file = .ok bytes ∧ annotated file (Text.Utf8.decodeSource bytes) = [] ∧
    (Path.baseName file ≠ s.routesFileName ∨ registered file (Text.Utf8.decodeSource bytes) = [])

/-! ### The files with routes -/

theorem isDirectory_of_stat {l : Location} {directory : String} (hp : Path.IsNormal directory)
    (h : t.stat directory = .ok (l, .directory)) : t.isDirectory directory = true :=
  FileTree.isDirectory_iff.2 ⟨hp.ne_empty, l, h⟩

/-- What is scanned is what is read. -/
theorem isScanned_iff_isRead (hn : ∀ root ∈ s.scanRoots, Path.IsNormal root) :
    IsScanned t s file ↔ IsRead t s file := by
  constructor
  · rintro ⟨he, root, hr, -, hl⟩
    exact ⟨⟨root, hr, (FileTree.isListed_iff_hasSource (hn root hr)).1 hl⟩, he⟩
  · rintro ⟨⟨root, hr, hs⟩, he⟩
    obtain ⟨l, hstat, -⟩ := hs.reached
    exact ⟨he, root, hr, isDirectory_of_stat (hn root hr) hstat,
      (FileTree.isListed_iff_hasSource (hn root hr)).2 hs⟩

/-- A file that has been read lacks routes if its text declares none. -/
theorem lacksRoutes_iff {f : Source} (h : Source.read t file = .ok f) :
    LacksRoutes t s file ↔ f.routes s.routesFileName = [] := by
  have hpath := Source.path_of_read h
  obtain ⟨bytes, hbytes⟩ := Source.read_isOk.1 ⟨f, h⟩
  have htext : f.text = Text.Utf8.decodeSource bytes := by
    rw [Source.read, hbytes] at h
    rw [← Except.ok.inj h]
  have hregistered : f.registered s.routesFileName = [] ↔
      (Path.baseName file ≠ s.routesFileName ∨
        registered file (Text.Utf8.decodeSource bytes) = []) := by
    rw [Source.registered, hpath, htext]
    by_cases hname : Path.baseName file = s.routesFileName
    · simp [hname]
    · simp [hname]
  rw [Source.routes, List.append_eq_nil_iff, hregistered, hpath, htext, LacksRoutes, hbytes]
  simp

/-- A file has routes if it is read and does not lack them. -/
theorem Survey.mem_filesWithRoutes_iff_read (hn : ∀ root ∈ s.scanRoots, Path.IsNormal root)
    {v : Survey} (hv : ofTree t s = .ok v) :
    file ∈ v.filesWithRoutes ↔ IsRead t s file ∧ ¬ LacksRoutes t s file := by
  have hcomplete := isComplete_of_ofTree (exists_root_of_ofTree hv) hv
  obtain ⟨sources, hsources, hperm, -⟩ := hcomplete.declared
  rw [mem_filesWithRoutes_iff]
  constructor
  · rintro ⟨r, hr, rfl⟩
    obtain ⟨f, hf, hr⟩ := List.mem_flatMap.1 (hperm.mem_iff.1 hr)
    obtain ⟨file, hfile, hread⟩ := exists_of_forall₂ hsources.flip hf
    have hsource : r.source = file := by
      rw [Source.source_of_mem_routes hr, Source.path_of_read hread]
    rw [hsource, lacksRoutes_iff hread]
    refine ⟨(isScanned_iff_isRead hn).1 ((hcomplete.mem_files file).1 hfile), ?_⟩
    exact List.ne_nil_of_mem hr
  · rintro ⟨hread, hroutes⟩
    have hfile := (hcomplete.mem_files file).2 ((isScanned_iff_isRead hn).2 hread)
    obtain ⟨f, hf, hread⟩ := exists_of_forall₂ hsources hfile
    rw [lacksRoutes_iff hread] at hroutes
    obtain ⟨r, hr⟩ := List.exists_mem_of_ne_nil _ hroutes
    refine ⟨r, hperm.mem_iff.2 (List.mem_flatMap.2 ⟨f, hf, hr⟩), ?_⟩
    rw [Source.source_of_mem_routes hr, Source.path_of_read hread]

/-! ### The files without routes -/

/-- The controllers of a tree, each once, in ascending order. -/
def controllerFiles (t : FileTree) (s : Settings) : List String :=
  Text.sortByKey id
    ((s.controllerDirs.filter t.isDirectory).flatMap (t.listed s.sourceExtension)).eraseDups

theorem Coverage.ofTree_eq (t : FileTree) (s : Settings) (filesWithRoutes : List String) :
    Coverage.ofTree t s.controllerDirs s.sourceExtension filesWithRoutes =
      .ok { controllers := controllerFiles t s
            withoutRoutes := (controllerFiles t s).filter fun f => !filesWithRoutes.contains f } := by
  rw [Coverage.ofTree, filesIn_eq _ fun d hd => (List.mem_filter.1 hd).2]
  rfl

theorem mem_controllerFiles (hn : ∀ directory ∈ s.controllerDirs, Path.IsNormal directory) :
    file ∈ controllerFiles t s ↔ IsController t s file := by
  unfold controllerFiles IsController
  rw [(Text.sortByKey_perm id _).mem_iff, List.mem_eraseDups, List.mem_flatMap]
  simp only [List.mem_filter, FileTree.mem_listed]
  constructor
  · rintro ⟨directory, ⟨hd, -⟩, hl⟩
    exact ⟨directory, hd, (FileTree.isListed_iff_hasSource (hn directory hd)).1 hl⟩
  · rintro ⟨directory, hd, hs⟩
    obtain ⟨l, hstat, -⟩ := hs.reached
    exact ⟨directory, ⟨hd, isDirectory_of_stat (hn directory hd) hstat⟩,
      (FileTree.isListed_iff_hasSource (hn directory hd)).2 hs⟩

theorem controllerFiles_pairwise (t : FileTree) (s : Settings) :
    (controllerFiles t s).Pairwise Text.UnitsLT := by
  have hnodup : ((((s.controllerDirs.filter t.isDirectory).flatMap
      (t.listed s.sourceExtension)).eraseDups).map id).Nodup := by
    rw [List.map_id]
    exact Text.nodup_eraseDups _
  exact Text.sortByKey_pairwise hnodup

end Route

/-- **Coverage is exact.** A file is reported as a controller without routes if it is a source file
reached from a controller directory and either is not read or its text declares no route. The files
are strictly ascending in the order of units, so none is reported twice. -/
theorem generateCode_withoutRoutes (t : FileTree) (s : Settings) (hs : s.IsNormal)
    (instant : Option Int) (check : Bool) {r : CodeResult}
    (h : (generateCode t s instant check).result = .ok r) :
    r.withoutRoutes.Pairwise Text.UnitsLT ∧ ∀ file, file ∈ r.withoutRoutes ↔
      Route.IsController t s file ∧ (¬ Route.IsRead t s file ∨ Route.LacksRoutes t s file) := by
  obtain ⟨survey, coverage, status, hsurvey, hcoverage, rfl, -⟩ :=
    codeTask_eq_ok.1 (Task.runOn_eq_ok.1 h)
  rw [Route.Coverage.ofTree_eq] at hcoverage
  obtain rfl := Except.ok.inj hcoverage
  dsimp only [codeResult]
  refine ⟨(Route.controllerFiles_pairwise t s).filter _, fun file => ?_⟩
  rw [List.mem_filter, Route.mem_controllerFiles hs.controllerDirs]
  refine and_congr_right fun _ => ?_
  have hwith : file ∈ survey.filesWithRoutes ↔ Route.IsRead t s file ∧ ¬ Route.LacksRoutes t s file :=
    Route.Survey.mem_filesWithRoutes_iff_read hs.scanRoots hsurvey
  calc (!survey.filesWithRoutes.contains file) = true
      ↔ ¬ file ∈ survey.filesWithRoutes := by simp
    _ ↔ ¬ (Route.IsRead t s file ∧ ¬ Route.LacksRoutes t s file) := not_congr hwith
    _ ↔ ¬ Route.IsRead t s file ∨ Route.LacksRoutes t s file := by
        rw [not_and_or, not_not]

/-! ### A sample -/

/-- The sample with the route of its source file commented out. -/
def coverageTree : FileTree :=
  sampleTree.put ["p", "src", "A.php"]
    (.file (Text.Utf8.encode "class A\n// #[Route('/a')]".toList)) (by decide)

/-- Settings with controller directories one below the other. -/
def coverageSettings : Settings := { sampleSettings with controllerDirs := ["/p/src", "/p"] }

theorem coverageSettings_isNormal : coverageSettings.IsNormal :=
  { sampleSettings_isNormal with controllerDirs := by decide +kernel }

/-- Two controller directories lead to the one source file, which is named once. -/
theorem generateCode_withoutRoutes_sample :
    coverageSettings.IsNormal ∧ ∃ r,
      (generateCode coverageTree coverageSettings none true).result = .ok r ∧
      r.withoutRoutes = ["/p/src/A.php"] ∧
      r.withoutRoutes.Pairwise Text.UnitsLT ∧ ∀ file, file ∈ r.withoutRoutes ↔
        Route.IsController coverageTree coverageSettings file ∧
          (¬ Route.IsRead coverageTree coverageSettings file ∨
            Route.LacksRoutes coverageTree coverageSettings file) := by
  have hfiles : (generateCode coverageTree coverageSettings none true).result.toOption.map
      CodeResult.withoutRoutes = some ["/p/src/A.php"] := by decide +kernel
  obtain ⟨r, hr⟩ : ∃ r, (generateCode coverageTree coverageSettings none true).result = .ok r :=
    exists_of_isSome (by decide +kernel)
  rw [hr] at hfiles
  exact ⟨coverageSettings_isNormal, r, hr, Option.some.inj hfiles,
    generateCode_withoutRoutes coverageTree coverageSettings coverageSettings_isNormal none true hr⟩

end ApiReport
