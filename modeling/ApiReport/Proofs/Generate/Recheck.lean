import ApiReport.Proofs.Generate.Tidy
import ApiReport.Proofs.Report.Stamp
import ApiReport.Proofs.Route.Survey
import ApiReport.Proofs.Text.Utf8

/-!
# Checking what has been written

A run that writes its report changes the tree, and with it what the next run reads: the report
itself, and directories that were missing before and may be scan roots or hold controllers. As long
as the report is no input of the run, a check that follows finds the same inputs, renders the same
lines but for the stamp, reads back the text that has been written, and calls it up to date.

Key definitions: `FileTree.location?`, `specResult`, `codeResult`.
Key theorems: `specTask_eq_ok`, `codeTask_eq_ok`, `FileTree.Wrote.load`, `FileTree.Wrote.ofTree`,
`finish_of_wrote`, `generate_then_check`.
-/
namespace ApiReport

variable {yaml : YamlReader} {t t' : FileTree} {s : Settings} {l d : Location} {path : String}
  {bytes : List UInt8}

/-! ### What a task has done -/

namespace Task

variable {α β : Type}

theorem bind_eq_ok {x : Task α} {f : α → Task β} {b : β} :
    (x >>= f) t = .ok b t' ↔ ∃ a t₁, x t = .ok a t₁ ∧ f a t₁ = .ok b t' := by
  show EStateM.bind x f t = .ok b t' ↔ _
  unfold EStateM.bind
  cases x t with
  | ok a t₁ => simp
  | error e t₁ => simp

theorem look_eq_ok {read : FileTree → Except Failure α} {a : α} :
    look read t = .ok a t' ↔ read t = .ok a ∧ t' = t := by
  unfold look
  cases read t with
  | ok b => simp [eq_comm]
  | error f => simp

theorem pure_eq_ok {a b : α} : (pure a : Task α) t = .ok b t' ↔ b = a ∧ t' = t := by
  show EStateM.Result.ok a t = .ok b t' ↔ _
  simp [eq_comm]

theorem runOn_eq_ok {task : Task α} {warnings : List Log.Entry} {message : α → String} {r : α} :
    (task.runOn t warnings message).result = .ok r ↔
      task t = .ok r (task.runOn t warnings message).tree := by
  unfold runOn
  cases task t with
  | ok a t₁ => simp
  | error f t₁ => simp

theorem runOn_result {task : Task α} {warnings : List Log.Entry} {message : α → String} {r : α}
    (h : task t = .ok r t') : (task.runOn t warnings message).result = .ok r := by
  rw [runOn, h]

end Task

/-- The result of a report on a document. -/
def specResult (s : Settings) (instant : Option Int) (document : Spec.Document) (status : Status) :
    SpecResult :=
  { outputPath := s.outputPath
    operationCount := (Spec.operations document).length
    status
    content := Spec.report (Spec.operations document) instant s.timeZone }

theorem specTask_eq_ok {instant : Option Int} {check : Bool} {r : SpecResult} :
    specTask yaml s instant check t = .ok r t' ↔ ∃ document status,
      Spec.load yaml t s.specPath = .ok document ∧ r = specResult s instant document status ∧
        finish s.outputPath r.content check t = .ok status t' := by
  unfold specTask
  simp only [Task.bind_eq_ok, Task.look_eq_ok, Task.pure_eq_ok]
  constructor
  · rintro ⟨document, _, ⟨hload, rfl⟩, status, _, hfinish, rfl, rfl⟩
    refine ⟨document, status, hload, by rw [specResult], ?_⟩
    dsimp only
    exact hfinish
  · rintro ⟨document, status, hload, rfl, hfinish⟩
    dsimp only [specResult] at hfinish
    exact ⟨document, t, ⟨hload, rfl⟩, status, t', hfinish, by rw [specResult], rfl⟩

/-- The result of a report on declared routes. -/
def codeResult (s : Settings) (instant : Option Int) (survey : Route.Survey)
    (coverage : Route.Coverage) (status : Status) : CodeResult :=
  { outputPath := s.codeOutputPath
    counts := Route.summary survey.routes
    fileCount := survey.files.length
    withoutRoutes := coverage.withoutRoutes
    status
    content := Route.report survey.routes coverage.withoutRoutes
      { instant, zone := s.timeZone, rootDir := s.rootDir, routesFileName := s.routesFileName } }

theorem codeTask_eq_ok {instant : Option Int} {check : Bool} {r : CodeResult} :
    codeTask s instant check t = .ok r t' ↔ ∃ survey coverage status,
      Route.Survey.ofTree t s = .ok survey ∧
        Route.Coverage.ofTree t s.controllerDirs s.sourceExtension survey.filesWithRoutes =
          .ok coverage ∧
        r = codeResult s instant survey coverage status ∧
        finish s.codeOutputPath r.content check t = .ok status t' := by
  unfold codeTask
  simp only [Task.bind_eq_ok, Task.look_eq_ok, Task.pure_eq_ok]
  constructor
  · rintro ⟨survey, _, ⟨hsurvey, rfl⟩, coverage, _, ⟨hcoverage, rfl⟩, status, _, hfinish, rfl, rfl⟩
    refine ⟨survey, coverage, status, hsurvey, hcoverage, by rw [codeResult], ?_⟩
    dsimp only
    exact hfinish
  · rintro ⟨survey, coverage, status, hsurvey, hcoverage, rfl, hfinish⟩
    dsimp only [codeResult] at hfinish
    exact ⟨survey, t, ⟨hsurvey, rfl⟩, coverage, t, ⟨hcoverage, rfl⟩, status, t', hfinish,
      by rw [codeResult], rfl⟩

/-! ### What a check finds after a write -/

namespace FileTree

/-- Where a path leads, if anything is there. -/
def location? (t : FileTree) (path : String) : Option Location :=
  (t.stat path).toOption.map Prod.fst

theorem location?_of_stat {e : Entry} (h : t.stat path = .ok (l, e)) :
    t.location? path = some l := by
  rw [location?, h]
  rfl

theorem read_eq_ok : t.read path = .ok bytes ↔ ∃ k, t.stat path = .ok (k, .file bytes) := by
  unfold read
  cases t.stat path with
  | error f => simp
  | ok found =>
    obtain ⟨k, old | _ | _⟩ := found
    all_goals simp

theorem stat_of_location? (h : t.location? path = some l) :
    ∃ e, t.stat path = .ok (l, e) ∧ t.entryAt? l = some e := by
  unfold location? at h
  cases hs : t.stat path with
  | error f =>
    rw [hs] at h
    cases h
  | ok found =>
    rw [hs] at h
    obtain rfl : found.1 = l := Option.some.inj h
    exact ⟨found.2, rfl, entryAt?_of_walk t.entryAt?_nil (stat_eq_ok.1 hs)⟩

/-- A path reads as the file at its location. -/
theorem read_eq_ok_of_location? (h : t.location? path = some l) :
    t.read path = .ok bytes ↔ t.entryAt? l = some (.file bytes) := by
  obtain ⟨e, hs, he⟩ := stat_of_location? h
  rw [read_eq_ok, hs, he]
  constructor
  · rintro ⟨k, hk⟩
    simpa using congrArg Prod.snd (Except.ok.inj hk)
  · intro hfile
    rw [Option.some.inj hfile]
    exact ⟨l, rfl⟩

theorem exists?_of_stat {e : Entry} (hp : path ≠ "") (h : t.stat path = .ok (l, e)) :
    t.exists? path = true := by
  rw [exists?, h, Bool.and_eq_true, decide_eq_true_eq]
  exact ⟨hp, rfl⟩

theorem ne_empty_of_exists? (h : t.exists? path = true) : path ≠ "" := by
  rw [exists?, Bool.and_eq_true] at h
  simpa using h.1

end FileTree

theorem Spec.load_eq_ok {document : Spec.Document} :
    Spec.load yaml t path = .ok document ↔
      t.exists? path = true ∧ ∃ bytes, t.read path = .ok bytes ∧
        Spec.parse yaml (Text.Utf8.decode bytes) (Spec.formatOf path) path = .ok document := by
  unfold Spec.load
  cases t.exists? path with
  | false => exact ⟨fun h => (by cases h), fun h => (by cases h.1)⟩
  | true =>
    simp only [Bool.not_true, Bool.false_eq_true, if_false, true_and, bind_eq_ok, mapError_eq_ok]

namespace FileTree.Wrote

/-- A document that is not written over is loaded as before. -/
theorem load (w : t.Wrote t' path bytes l d) {spec : String} {document : Spec.Document}
    (h : Spec.load yaml t spec = .ok document) (hne : t'.location? spec ≠ some l) :
    Spec.load yaml t' spec = .ok document := by
  obtain ⟨he, old, hread, hparse⟩ := Spec.load_eq_ok.1 h
  obtain ⟨k, hs⟩ := read_eq_ok.1 hread
  have hk : k ≠ l := by
    rintro rfl
    obtain ⟨f, hw, -⟩ := w.grown.walk (stat_eq_ok.1 hs)
    exact hne (location?_of_stat (stat_eq_ok.2 hw))
  have hs' := w.stat_of_ne hs hk
  exact Spec.load_eq_ok.2
    ⟨exists?_of_stat (ne_empty_of_exists? he) hs', old, read_eq_ok.2 ⟨k, hs'⟩, hparse⟩

/-- Directories that have been made hold no files to list, so that it does not matter whether they
are looked into. -/
theorem flatMap_listed (w : t.Wrote t' path bytes l d) (hlinks : t.LinksAreNormal) {ending : String}
    (hl : endsIn ending l = false) {directories : List String}
    (hn : ∀ p ∈ directories, Path.IsNormal p) :
    (directories.filter t'.isDirectory).flatMap (t'.listed ending) =
      (directories.filter t.isDirectory).flatMap (t.listed ending) := by
  rw [flatMap_filter, flatMap_filter]
  refine List.flatMap_congr fun p hp => ?_
  rw [listed_of_isDirectory (hn p hp).ne_empty, listed_of_isDirectory (hn p hp).ne_empty,
    w.listed hlinks hl (hn p hp)]

theorem filesIn (w : t.Wrote t' path bytes l d) (hlinks : t.LinksAreNormal) {ending : String}
    (hl : endsIn ending l = false) {directories : List String}
    (hn : ∀ p ∈ directories, Path.IsNormal p) :
    Route.filesIn t' (directories.filter t'.isDirectory) ending =
      Route.filesIn t (directories.filter t.isDirectory) ending := by
  rw [Route.filesIn_eq _ fun p hp => (List.mem_filter.1 hp).2,
    Route.filesIn_eq _ fun p hp => (List.mem_filter.1 hp).2, w.flatMap_listed hlinks hl hn]

theorem read_scanned (w : t.Wrote t' path bytes l d) (hl : endsIn s.sourceExtension l = false)
    (hn : ∀ p ∈ s.scanRoots, Path.IsNormal p) {file : String} (h : Route.IsScanned t s file) :
    Route.Source.read t' file = Route.Source.read t file := by
  obtain ⟨-, root, hr, -, hlisted⟩ := h
  obtain ⟨k, old, hs, he⟩ := hlisted.stat (hn root hr)
  have hs' := w.stat_of_ne hs (ne_of_endsIn he hl)
  rw [Route.Source.read, read_eq_ok.2 ⟨k, hs'⟩, Route.Source.read, read_eq_ok.2 ⟨k, hs⟩]

/-- The survey of sources that are not written over is as before. -/
theorem ofTree (w : t.Wrote t' path bytes l d) (hlinks : t.LinksAreNormal)
    (hl : endsIn s.sourceExtension l = false) (hn : ∀ p ∈ s.scanRoots, Path.IsNormal p)
    {survey : Route.Survey} (h : Route.Survey.ofTree t s = .ok survey) :
    Route.Survey.ofTree t' s = .ok survey := by
  have hroot := Route.Survey.exists_root_of_ofTree h
  obtain ⟨sources, hs, rfl⟩ := (Route.Survey.ofTree_eq_ok hroot).1 h
  have hroot' : ∃ root ∈ s.scanRoots, t'.isDirectory root = true := by
    obtain ⟨root, hr, hd⟩ := hroot
    exact ⟨root, hr, w.isDirectory hd⟩
  have hfiles : Route.scanned t' s = Route.scanned t s := by
    rw [Route.scanned, Route.existingRoots, w.flatMap_listed hlinks hl hn, Route.scanned,
      Route.existingRoots]
  refine (Route.Survey.ofTree_eq_ok hroot').2 ⟨sources, ?_, by rw [hfiles]⟩
  rw [hfiles]
  have hmem := (List.forall₂_and_left _ _).2 ⟨fun file hf => Route.mem_scanned.1 hf, hs⟩
  exact hmem.imp fun file f hf => by rw [w.read_scanned hl hn hf.1, hf.2]

theorem coverage (w : t.Wrote t' path bytes l d) (hlinks : t.LinksAreNormal) {ending : String}
    (hl : endsIn ending l = false) {directories : List String}
    (hn : ∀ p ∈ directories, Path.IsNormal p) (filesWithRoutes : List String) :
    Route.Coverage.ofTree t' directories ending filesWithRoutes =
      Route.Coverage.ofTree t directories ending filesWithRoutes := by
  rw [Route.Coverage.ofTree, w.filesIn hlinks hl hn, Route.Coverage.ofTree]

end FileTree.Wrote

/-- A check reads back the text that has been written. -/
theorem readReport_of_wrote {content : String} (hp : path ≠ "")
    (w : t.Wrote t' path (Text.Utf8.encode content.toList) l d) :
    readReport t' path = .ok (some content) := by
  rw [readReport, if_pos (FileTree.exists?_of_stat hp w.found), FileTree.readText, w.read]
  simp only [Except.map, Except.mapError, Text.Utf8.decode_encode, String.ofList_toList]

theorem finish_of_wrote {content content' : String} (hp : path ≠ "")
    (w : t.Wrote t' path (Text.Utf8.encode content.toList) l d)
    (h : Report.same content content' = true) :
    finish path content' true t' = .ok .upToDate t' := by
  rw [finish_check, Task.look_bind, readReport_of_wrote hp w]
  simp only [Option.any_some, h, if_true]
  rfl


/-! ### Writing, then checking -/

/-- What a successful write leaves: the report, and the result that it is written. -/
theorem wrote_of_finish {status : Status} {content : String} (hp : Path.IsNormal path)
    (h : finish path content false t = .ok status t') :
    ∃ l d, t.Wrote t' path (Text.Utf8.encode content.toList) l d := by
  have hleaves := finish_leaves t hp content false
  rw [h] at hleaves
  exact hleaves.2

theorem specTask_recheck {now₁ now₂ : Option Int} {r : SpecResult}
    (hp : Path.IsNormal s.outputPath) (h : specTask yaml s now₁ false t = .ok r t')
    (hne : t'.location? s.specPath ≠ t'.location? s.outputPath) :
    ∃ content, specTask yaml s now₂ true t' = .ok { r with status := .upToDate, content } t' ∧
      Report.AgreeButSecond r.content content := by
  obtain ⟨document, status, hload, rfl, hfinish⟩ := specTask_eq_ok.1 h
  dsimp only [specResult] at hfinish ⊢
  obtain ⟨l, d, w⟩ := wrote_of_finish hp hfinish
  rw [FileTree.location?_of_stat w.found] at hne
  obtain ⟨hsame, hagree⟩ := Spec.report_same (Spec.operations document) now₁ now₂ s.timeZone
  refine ⟨_, specTask_eq_ok.2 ⟨document, .upToDate, w.load hload hne, by rw [specResult], ?_⟩,
    hagree⟩
  dsimp only
  exact finish_of_wrote hp.ne_empty w hsame

theorem codeTask_recheck {now₁ now₂ : Option Int} {r : CodeResult} (hs : s.IsNormal)
    (hlinks : t.LinksAreNormal) (h : codeTask s now₁ false t = .ok r t')
    (hne : ∀ l, t'.location? s.codeOutputPath = some l →
      FileTree.endsIn s.sourceExtension l = false) :
    ∃ content, codeTask s now₂ true t' = .ok { r with status := .upToDate, content } t' ∧
      Report.AgreeButSecond r.content content := by
  obtain ⟨survey, coverage, status, hsurvey, hcoverage, rfl, hfinish⟩ := codeTask_eq_ok.1 h
  dsimp only [codeResult] at hfinish ⊢
  obtain ⟨l, d, w⟩ := wrote_of_finish hs.codeOutputPath hfinish
  have hl := hne l (FileTree.location?_of_stat w.found)
  obtain ⟨hsame, hagree⟩ := Route.report_same survey.routes coverage.withoutRoutes
    { instant := now₁, zone := s.timeZone, rootDir := s.rootDir
      routesFileName := s.routesFileName } now₂
  refine ⟨_, codeTask_eq_ok.2 ⟨survey, coverage, .upToDate, w.ofTree hlinks hl hs.scanRoots hsurvey,
    ?_, by rw [codeResult], ?_⟩, hagree⟩
  · rw [w.coverage hlinks hl hs.controllerDirs, hcoverage]
  · dsimp only
    exact finish_of_wrote hs.codeOutputPath.ne_empty w hsame

/-- **Writing and then checking is always current.** After a run that has written its report, a
check at any time finds it up to date, with the same results, and renders the same lines but for the
second one; provided that the report is no input of the run: it does not lead to the description
document, or its own name does not end like those of source files. -/
theorem generate_then_check (yaml : YamlReader) (t : FileTree) (s : Settings) (hs : s.IsNormal)
    (hlinks : t.LinksAreNormal) (now₁ now₂ : Option Int) :
    (∀ r, (generateSpec yaml t s now₁ false).result = .ok r →
      (generateSpec yaml t s now₁ false).tree.location? s.specPath ≠
        (generateSpec yaml t s now₁ false).tree.location? s.outputPath →
      ∃ content,
        (generateSpec yaml (generateSpec yaml t s now₁ false).tree s now₂ true).result =
          .ok { r with status := .upToDate, content } ∧
        Report.AgreeButSecond r.content content) ∧
    (∀ r, (generateCode t s now₁ false).result = .ok r →
      (∀ l, (generateCode t s now₁ false).tree.location? s.codeOutputPath = some l →
        FileTree.endsIn s.sourceExtension l = false) →
      ∃ content,
        (generateCode (generateCode t s now₁ false).tree s now₂ true).result =
          .ok { r with status := .upToDate, content } ∧
        Report.AgreeButSecond r.content content) := by
  constructor
  · intro r hr hne
    obtain ⟨content, hcheck, hagree⟩ := specTask_recheck hs.outputPath (Task.runOn_eq_ok.1 hr) hne
    exact ⟨content, Task.runOn_result hcheck, hagree⟩
  · intro r hr hne
    obtain ⟨content, hcheck, hagree⟩ := codeTask_recheck hs hlinks (Task.runOn_eq_ok.1 hr) hne
    exact ⟨content, Task.runOn_result hcheck, hagree⟩

/-! ### A sample -/

/-- Whether an entry is no link, or one whose target is a list of names. -/
def Entry.linkIsNormal : Entry → Bool
  | .link target => decide (Path.IsLocation target)
  | _ => true

theorem FileTree.linksAreNormal_of_entries (h : ∀ e ∈ t.entries, e.2.linkIsNormal = true) :
    t.LinksAreNormal := by
  intro k target hk
  have hne : k ≠ [] := by
    rintro rfl
    cases hk
  exact of_decide_eq_true (h _ (FileTree.mem_entries.2 ⟨hne, hk⟩))

theorem sampleTree_linksAreNormal : sampleTree.LinksAreNormal :=
  FileTree.linksAreNormal_of_entries (by decide +kernel)

/-- The first reports of the sample are written into a directory that is made for them and is a scan
root. -/
theorem generate_then_check_sample :
    sampleSettings.IsNormal ∧ sampleTree.LinksAreNormal ∧
      (∃ r content,
        (generateSpec Yaml.reader sampleTree sampleSettings (some 0) false).result = .ok r ∧
        (generateSpec Yaml.reader sampleTree sampleSettings (some 0) false).tree.location?
            "/p/api.json" ≠
          (generateSpec Yaml.reader sampleTree sampleSettings (some 0) false).tree.location?
            "/p/docs/new/API.md" ∧
        (generateSpec Yaml.reader
          (generateSpec Yaml.reader sampleTree sampleSettings (some 0) false).tree sampleSettings
          none true).result = .ok { r with status := .upToDate, content } ∧
        Report.AgreeButSecond r.content content) ∧
      ∃ r content, (generateCode sampleTree sampleSettings (some 0) false).result = .ok r ∧
        (generateCode sampleTree sampleSettings (some 0) false).tree.location?
          "/p/docs/new/CODE.md" = some ["d", "new", "CODE.md"] ∧
        FileTree.endsIn ".php" ["d", "new", "CODE.md"] = false ∧
        (generateCode (generateCode sampleTree sampleSettings (some 0) false).tree sampleSettings
          none true).result = .ok { r with status := .upToDate, content } ∧
        Report.AgreeButSecond r.content content := by
  have hlinks := sampleTree_linksAreNormal
  obtain ⟨hspec, hcode⟩ := generate_then_check Yaml.reader sampleTree sampleSettings
    sampleSettings_isNormal hlinks (some 0) none
  refine ⟨sampleSettings_isNormal, hlinks, ?_, ?_⟩
  · obtain ⟨r, hr⟩ : ∃ r,
        (generateSpec Yaml.reader sampleTree sampleSettings (some 0) false).result = .ok r :=
      exists_of_isSome (by decide +kernel)
    have hne :
        (generateSpec Yaml.reader sampleTree sampleSettings (some 0) false).tree.location?
            "/p/api.json" ≠
          (generateSpec Yaml.reader sampleTree sampleSettings (some 0) false).tree.location?
            "/p/docs/new/API.md" := by decide +kernel
    obtain ⟨content, h⟩ := hspec r hr hne
    exact ⟨r, content, hr, hne, h⟩
  · obtain ⟨r, hr⟩ : ∃ r, (generateCode sampleTree sampleSettings (some 0) false).result = .ok r :=
      exists_of_isSome (by decide +kernel)
    have hl : (generateCode sampleTree sampleSettings (some 0) false).tree.location?
        "/p/docs/new/CODE.md" = some ["d", "new", "CODE.md"] := by decide +kernel
    have hend : FileTree.endsIn ".php" ["d", "new", "CODE.md"] = false := by decide
    obtain ⟨content, h⟩ := hcode r hr fun l h => by
      rw [← Option.some.inj (hl.symm.trans h)]
      exact hend
    exact ⟨r, content, hr, hl, hend, h⟩

end ApiReport
