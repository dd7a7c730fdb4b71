import ApiReport.Proofs.FileTree.Listing
import ApiReport.Proofs.Outcome
import ApiReport.Route.Survey
import Mathlib.Data.List.Perm.Basic

/-!
# What a survey finds

A survey reads every file to be scanned once, however many scan roots lead to it, and finds every
route that the files declare, as often as they declare it: ordered by path and method, and where
these are equal, annotated routes first, in the order of the files and of their texts. It fails only
if there is no scan root or a file cannot be read, which does not happen below normal paths.

Key definitions: `Route.IsScanned`, `Route.Before`, `Route.Survey.IsComplete`, `sampleTree`,
`sampleSettings`.
Key theorems: `Route.mem_scanned`, `Route.Survey.ofTree_eq_ok`, `Route.filter_sorted`,
`Route.Survey.ofTree_complete`.
-/
namespace ApiReport

theorem flatMap_filter {α β : Type} {p : α → Bool} {f : α → List β} (xs : List α) :
    (xs.filter p).flatMap f = xs.flatMap fun x => if p x then f x else [] := by
  induction xs with
  | nil => rfl
  | cons x xs ih =>
    by_cases hx : p x = true
    · rw [List.filter_cons_of_pos hx, List.flatMap_cons, List.flatMap_cons, if_pos hx, ih]
    · rw [List.filter_cons_of_neg hx, List.flatMap_cons, if_neg hx, List.nil_append, ih]

namespace Route

variable {t : FileTree} {s : Settings}

/-! ### The files to be scanned -/

/-- A file that is to be scanned: it is listed below a scan root, and not excluded. -/
def IsScanned (t : FileTree) (s : Settings) (file : String) : Prop :=
  file ∉ s.excludedFiles ∧
    ∃ root ∈ s.scanRoots, t.isDirectory root = true ∧ t.IsListed s.sourceExtension root file

/-- The files to be scanned, if there is a scan root. -/
def scanned (t : FileTree) (s : Settings) : List String :=
  ((existingRoots t s).flatMap (t.listed s.sourceExtension)).eraseDups.filter fun file =>
    !s.excludedFiles.contains file

theorem filesIn_eq {directories : List String} (ending : String)
    (h : ∀ d ∈ directories, t.isDirectory d = true) :
    filesIn t directories ending = .ok (directories.flatMap (t.listed ending)).eraseDups := by
  have hm : directories.mapM (fun d =>
        (t.sources d ending).mapError fun f => Failure.system f "scandir") =
      .ok (directories.map (t.listed ending)) := by
    refine mapM_eq_ok.2 (List.forall₂_map_right_iff.2 (List.forall₂_same.2 fun d hd => ?_))
    exact mapError_eq_ok.2 (FileTree.sources_of_isDirectory (h d hd))
  rw [filesIn, hm, List.flatMap]
  rfl

theorem mem_existingRoots {root : String} :
    root ∈ existingRoots t s ↔ root ∈ s.scanRoots ∧ t.isDirectory root = true := List.mem_filter

theorem existingRoots_isEmpty :
    (existingRoots t s).isEmpty = false ↔ ∃ root ∈ s.scanRoots, t.isDirectory root = true := by
  rw [← Bool.not_eq_true, List.isEmpty_iff, List.eq_nil_iff_forall_not_mem]
  simp only [mem_existingRoots, not_forall, not_not]

theorem Survey.exists_root_of_ofTree {v : Survey} (h : Survey.ofTree t s = .ok v) :
    ∃ root ∈ s.scanRoots, t.isDirectory root = true := by
  rw [← existingRoots_isEmpty]
  by_contra he
  rw [Bool.not_eq_false] at he
  rw [ofTree, scanFiles, he] at h
  cases h

theorem scanFiles_eq (h : ∃ root ∈ s.scanRoots, t.isDirectory root = true) :
    scanFiles t s = .ok (scanned t s) := by
  have hf : filesIn t (existingRoots t s) s.sourceExtension = .ok _ :=
    filesIn_eq _ fun d hd => (mem_existingRoots.1 hd).2
  rw [scanFiles, existingRoots_isEmpty.2 h, hf]
  rfl

theorem nodup_scanned (t : FileTree) (s : Settings) : (scanned t s).Nodup :=
  (Text.nodup_eraseDups _).filter _

theorem mem_scanned {file : String} : file ∈ scanned t s ↔ IsScanned t s file := by
  unfold scanned IsScanned
  rw [List.mem_filter, List.mem_eraseDups, List.mem_flatMap]
  simp only [mem_existingRoots, FileTree.mem_listed]
  constructor
  · rintro ⟨⟨root, ⟨hr, hd⟩, hl⟩, he⟩
    exact ⟨by simpa using he, root, hr, hd, hl⟩
  · rintro ⟨he, root, hr, hd, hl⟩
    exact ⟨⟨root, ⟨hr, hd⟩, hl⟩, by simpa using he⟩

/-! ### The files that are read -/

theorem Source.path_of_read {file : String} {f : Source} (h : Source.read t file = .ok f) :
    f.path = file := by
  unfold Source.read at h
  cases hr : t.read file with
  | error e => rw [hr] at h; cases h
  | ok bytes =>
    rw [hr] at h
    rw [← Except.ok.inj h]

theorem Source.read_isOk {file : String} :
    (∃ f, Source.read t file = .ok f) ↔ ∃ bytes, t.read file = .ok bytes := by
  unfold Source.read
  cases t.read file <;> simp [Except.map]

/-- What a survey is made of. -/
theorem Survey.ofTree_eq_ok (h : ∃ root ∈ s.scanRoots, t.isDirectory root = true) {v : Survey} :
    Survey.ofTree t s = .ok v ↔
      ∃ sources, (scanned t s).Forall₂ (fun file f => Source.read t file = .ok f) sources ∧
        v = { files := scanned t s
              lossy := (sources.filter Source.lossy).map Source.path
              routes := sorted (routesOf s.routesFileName sources) } := by
  rw [ofTree, scanFiles_eq h, bind_eq_ok]
  simp only [Except.ok.injEq, exists_eq_left', bind_eq_ok, mapM_eq_ok, mapError_eq_ok]
  refine exists_congr fun sources => and_congr_right fun _ => ?_
  exact ⟨fun hv => (Except.ok.inj hv).symm, fun hv => hv ▸ rfl⟩

/-! ### The routes of the files -/

/-- The routes that a file registers, if it is a routes file. -/
def Source.registered (routesFileName : String) (f : Source) : List Route :=
  if Path.baseName f.path = routesFileName then Route.registered f.path f.text else []

/-- The routes that a file declares; registrations count in routes files only. -/
def Source.routes (routesFileName : String) (f : Source) : List Route :=
  annotated f.path f.text ++ f.registered routesFileName

theorem routesOf_eq (routesFileName : String) (sources : List Source) :
    routesOf routesFileName sources =
      sources.flatMap (fun f => annotated f.path f.text) ++
        sources.flatMap (Source.registered routesFileName) := by
  unfold routesOf
  rw [flatMap_filter]
  simp only [decide_eq_true_eq]
  rfl

/-- No file's routes are lost or found twice. -/
theorem routesOf_perm (routesFileName : String) (sources : List Source) :
    (routesOf routesFileName sources).Perm (sources.flatMap (Source.routes routesFileName)) := by
  rw [routesOf_eq]
  exact List.flatMap_append_perm _ _ _

theorem source_of_mem_annotatedFrom {source : String} {r : Route} :
    ∀ {s : Scan} {lines : List (List Char)}, r ∈ annotatedFrom source s lines → r.source = source
  | s, [], h => by cases h
  | s, line :: following, h => by
    rw [annotatedFrom, List.mem_append] at h
    rcases h with h | h
    · unfold Scan.declared? at h
      split at h
      · cases h
      · rw [Option.mem_toList, Option.map_eq_some_iff] at h
        obtain ⟨text, -, rfl⟩ := h
        rfl
    · exact source_of_mem_annotatedFrom h

theorem Source.source_of_mem_routes {routesFileName : String} {f : Source} {r : Route}
    (h : r ∈ f.routes routesFileName) : r.source = f.path := by
  rcases List.mem_append.1 h with h | h
  · exact source_of_mem_annotatedFrom h
  · unfold Source.registered at h
    split at h
    · obtain ⟨c, -, rfl⟩ := List.mem_map.1 h
      rfl
    · cases h

/-! ### The order of routes -/

/-- A route may stand before another one: its path does in the order of units, or the paths are the
same and its method does or is the same. -/
def Before (a b : Route) : Prop :=
  Text.UnitsLT a.path b.path ∨
    a.path = b.path ∧ (a.method = b.method ∨ Text.UnitsLT a.method b.method)

/-- Whether a route has a certain path and method. -/
def isAt (path method : String) (r : Route) : Bool := r.path = path && r.method = method

theorem le_eq_namesLE (a b : Route) :
    le a b = FileTree.namesLE [a.path, a.method] [b.path, b.method] := by
  unfold le
  by_cases hp : a.path = b.path
  · rw [if_pos hp, hp, FileTree.isLex_namesLE.cons_self]
    by_cases hm : a.method = b.method
    · rw [hm, FileTree.isLex_namesLE.cons_self]
      exact Text.isOrder_unitsLE.refl _
    · rw [FileTree.isLex_namesLE.cons_cons _ _ hm]
  · rw [if_neg hp, FileTree.isLex_namesLE.cons_cons _ _ hp]

theorem le_total (a b : Route) : le a b = true ∨ le b a = true := by
  rw [le_eq_namesLE, le_eq_namesLE]
  exact FileTree.isOrder_namesLE.total _ _

theorem le_trans (a b c : Route) (h₁ : le a b = true) (h₂ : le b c = true) : le a c = true := by
  rw [le_eq_namesLE] at *
  exact FileTree.isOrder_namesLE.trans h₁ h₂

theorem before_of_le {a b : Route} (h : le a b = true) : Before a b := by
  unfold le at h
  by_cases hp : a.path = b.path
  · rw [if_pos hp, Text.unitsLE_iff] at h
    exact .inr ⟨hp, h⟩
  · rw [if_neg hp, Text.unitsLE_iff] at h
    exact .inl (h.resolve_left hp)

theorem sorted_perm (routes : List Route) : (sorted routes).Perm routes := routes.mergeSort_perm le

theorem pairwise_le_sorted (routes : List Route) :
    (sorted routes).Pairwise fun a b => le a b = true :=
  Text.pairwise_mergeSort le_total le_trans routes

theorem sorted_pairwise (routes : List Route) : (sorted routes).Pairwise Before :=
  (pairwise_le_sorted routes).imp before_of_le

/-- Routes with equal path and method keep their order. -/
theorem filter_sorted (path method : String) (routes : List Route) :
    (sorted routes).filter (isAt path method) = routes.filter (isAt path method) := by
  refine Text.filter_mergeSort le_total le_trans (fun a b ha hb => ?_) routes
  obtain ⟨hap, ham⟩ : a.path = path ∧ a.method = method := by simpa [isAt] using ha
  obtain ⟨hbp, hbm⟩ : b.path = path ∧ b.method = method := by simpa [isAt] using hb
  rw [le, if_pos (hap.trans hbp.symm), ham, hbm]
  exact Text.isOrder_unitsLE.refl method

/-! ### Complete surveys -/

namespace Survey

/-- A survey that has read every file to be scanned once and neither lost nor duplicated nor
misordered a route. Routes with equal path and method stand in the order of annotations before
registrations, then of files, then of places in a file. -/
structure IsComplete (t : FileTree) (s : Settings) (v : Survey) : Prop where
  nodup : v.files.Nodup
  mem_files : ∀ file, file ∈ v.files ↔ IsScanned t s file
  declared : ∃ sources, v.files.Forall₂ (fun file f => Source.read t file = .ok f) sources ∧
    v.routes.Perm (sources.flatMap (Source.routes s.routesFileName)) ∧
    ∀ path method, v.routes.filter (isAt path method) =
      (sources.flatMap fun f => annotated f.path f.text).filter (isAt path method) ++
        (sources.flatMap (Source.registered s.routesFileName)).filter (isAt path method)
  ordered : v.routes.Pairwise Before
  nodup_filesWithRoutes : v.filesWithRoutes.Nodup
  mem_filesWithRoutes : ∀ file, file ∈ v.filesWithRoutes ↔ ∃ r ∈ v.routes, r.source = file
  filesWithRoutes_subset : ∀ file ∈ v.filesWithRoutes, file ∈ v.files

theorem mem_filesWithRoutes_iff {v : Survey} {file : String} :
    file ∈ v.filesWithRoutes ↔ ∃ r ∈ v.routes, r.source = file := by
  rw [filesWithRoutes, (Text.sortByKey_perm _ _).mem_iff, List.mem_eraseDups, List.mem_map]

theorem nodup_filesWithRoutes (v : Survey) : v.filesWithRoutes.Nodup :=
  (Text.sortByKey_perm _ _).nodup_iff.2 (Text.nodup_eraseDups _)

theorem isComplete_of_ofTree (h : ∃ root ∈ s.scanRoots, t.isDirectory root = true) {v : Survey}
    (hv : ofTree t s = .ok v) : v.IsComplete t s := by
  obtain ⟨sources, hs, rfl⟩ := (ofTree_eq_ok h).1 hv
  have hperm := (sorted_perm _).trans (routesOf_perm s.routesFileName sources)
  refine ⟨nodup_scanned t s, fun file => mem_scanned, ⟨sources, hs, hperm, fun path method => ?_⟩,
    sorted_pairwise _, nodup_filesWithRoutes _, fun file => mem_filesWithRoutes_iff,
    fun file hf => ?_⟩
  · dsimp only
    rw [filter_sorted, routesOf_eq, List.filter_append]
  · obtain ⟨r, hr, rfl⟩ := mem_filesWithRoutes_iff.1 hf
    obtain ⟨f, hf, hr⟩ := List.mem_flatMap.1 (hperm.mem_iff.1 hr)
    rw [Source.source_of_mem_routes hr]
    obtain ⟨file, hfile, hread⟩ := exists_of_forall₂ hs.flip hf
    rwa [Source.path_of_read hread]

/-- A survey fails only where a file to be scanned cannot be read. -/
theorem ofTree_isOk (h : ∃ root ∈ s.scanRoots, t.isDirectory root = true) :
    (∃ v, ofTree t s = .ok v) ↔ ∀ file, IsScanned t s file → ∃ bytes, t.read file = .ok bytes := by
  constructor
  · rintro ⟨v, hv⟩ file hf
    obtain ⟨sources, hs, -⟩ := (ofTree_eq_ok h).1 hv
    obtain ⟨f, -, hread⟩ := exists_of_forall₂ hs (mem_scanned.2 hf)
    exact Source.read_isOk.1 ⟨f, hread⟩
  · intro hall
    obtain ⟨sources, hs⟩ : ∃ sources,
        (scanned t s).Forall₂ (fun file f => Source.read t file = .ok f) sources := by
      refine exists_forall₂ fun file hf => ?_
      exact Source.read_isOk.2 (hall file (mem_scanned.1 hf))
    exact ⟨_, (ofTree_eq_ok h).2 ⟨sources, hs, rfl⟩⟩

/-- Below normal paths every file that is listed can be read. -/
theorem exists_ofTree (h : ∃ root ∈ s.scanRoots, t.isDirectory root = true)
    (hn : ∀ root ∈ s.scanRoots, Path.IsNormal root) : ∃ v, ofTree t s = .ok v := by
  refine (ofTree_isOk h).2 ?_
  rintro file ⟨-, root, hr, -, hl⟩
  obtain ⟨k, bytes, hs, -⟩ := hl.stat (hn root hr)
  exact ⟨bytes, by rw [FileTree.read, hs]⟩

/-- **Surveys are complete.** Where there is a scan root, a survey fails only if a file to be
scanned cannot be read, which does not happen below normal paths; else it is complete. -/
theorem ofTree_complete (t : FileTree) (s : Settings)
    (h : ∃ root ∈ s.scanRoots, t.isDirectory root = true) :
    ((∃ v, ofTree t s = .ok v) ↔ ∀ file, IsScanned t s file → ∃ bytes, t.read file = .ok bytes) ∧
      ((∀ root ∈ s.scanRoots, Path.IsNormal root) → ∃ v, ofTree t s = .ok v) ∧
      ∀ v, ofTree t s = .ok v → v.IsComplete t s :=
  ⟨ofTree_isOk h, exists_ofTree h, fun _ => isComplete_of_ofTree h⟩

end Survey

end Route

/-! ### A sample -/

/-- A project whose documents lie behind a link and whose one source file declares a route. -/
def sampleTree : FileTree :=
  (((((FileTree.empty.put ["d"] .directory (by decide)).put
    ["p"] .directory (by decide)).put
    ["p", "docs"] (.link ["d"]) (by decide)).put
    ["p", "api.json"] (.file (Text.Utf8.encode "{}".toList)) (by decide)).put
    ["p", "src"] .directory (by decide)).put
    ["p", "src", "A.php"] (.file (Text.Utf8.encode "class A\n#[Route('/a')]".toList)) (by decide)

/-- Settings with scan roots one below the other, and with one that is missing until the first
report is written. -/
def sampleSettings : Settings :=
  { rootDir := "/p"
    specPath := "/p/api.json"
    outputPath := "/p/docs/new/API.md"
    codeOutputPath := "/p/docs/new/CODE.md"
    scanRoots := ["/p", "/p/src", "/d/new"]
    controllerDirs := ["/p/src", "/d/new"]
    excludedFiles := []
    sourceExtension := ".php"
    routesFileName := "routes.php"
    timeZone := none }

theorem sampleSettings_isNormal : sampleSettings.IsNormal where
  rootDir := by decide +kernel
  specPath := by decide +kernel
  outputPath := by decide +kernel
  codeOutputPath := by decide +kernel
  scanRoots := by decide +kernel
  controllerDirs := by decide +kernel
  excludedFiles := by decide +kernel

/-- Two roots lead to the one source file, which is scanned once. -/
theorem Route.Survey.ofTree_complete_sample :
    (∃ root ∈ sampleSettings.scanRoots, sampleTree.isDirectory root = true) ∧
      ∃ v, ofTree sampleTree sampleSettings = .ok v ∧ v.files = ["/p/src/A.php"] ∧
        v.IsComplete sampleTree sampleSettings := by
  have hroot : ∃ root ∈ sampleSettings.scanRoots, sampleTree.isDirectory root = true :=
    ⟨"/p", by decide, by decide +kernel⟩
  have hfiles : (ofTree sampleTree sampleSettings).toOption.map files = some ["/p/src/A.php"] := by
    decide +kernel
  obtain ⟨-, hok, hcomplete⟩ := ofTree_complete sampleTree sampleSettings hroot
  obtain ⟨v, hv⟩ := hok sampleSettings_isNormal.scanRoots
  rw [hv] at hfiles
  exact ⟨hroot, v, hv, Option.some.inj hfiles, hcomplete v hv⟩

end ApiReport
