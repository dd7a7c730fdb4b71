import ApiReport.Generate
import ApiReport.Proofs.FileTree.Write
import ApiReport.Proofs.Route.Survey
import ApiReport.Yaml.Document

/-!
# What runs leave behind

A run looks at the tree until its report is ready and changes it at the very end, if at all. So a
run that fails or only checks leaves the tree as it was, and one that writes leaves it as it was but
for the report and the directories above it that were missing.

Key definitions: `Task.LeavesReport`, `Run.Tidy`.
Key theorems: `finish_leaves`, `specTask_leaves`, `codeTask_leaves`, `generate_tidy`.
-/
namespace ApiReport

variable {α β : Type}

namespace Task

/-- What a task that ends in a report at a path leaves of a tree: the tree itself if it fails or
only checks, else the tree with the report written. -/
def LeavesReport (t : FileTree) (check : Bool) (path : String) (status : α → Status)
    (content : α → String) : EStateM.Result Failure FileTree α → Prop
  | .error _ t' => t' = t
  | .ok r t' =>
    if check then t' = t
    else status r = .written ∧
      ∃ l d, t.Wrote t' path (Text.Utf8.encode (content r).toList) l d

variable {t : FileTree} {check : Bool} {path : String}

/-- A look leaves the tree to what comes next. -/
theorem look_bind (read : FileTree → Except Failure β) (next : β → Task α) (t : FileTree) :
    (look read >>= next) t =
      match read t with
      | .ok b => next b t
      | .error f => .error f t := by
  show EStateM.bind (look read) next t = _
  unfold EStateM.bind look
  cases read t <;> rfl

theorem LeavesReport.look_bind {status : α → Status} {content : α → String}
    {read : FileTree → Except Failure β} {next : β → Task α}
    (h : ∀ b, read t = .ok b → LeavesReport t check path status content (next b t)) :
    LeavesReport t check path status content ((look read >>= next) t) := by
  rw [Task.look_bind]
  cases hr : read t with
  | ok b => exact h b hr
  | error f => rfl

/-- What is made of the status does not matter, if it keeps status and content. -/
theorem LeavesReport.map {status : α → Status} {content : α → String} {report : String}
    {c : Task Status} {f : Status → α}
    (hc : LeavesReport t check path id (fun _ => report) (c t))
    (hs : ∀ s, status (f s) = s) (hr : ∀ s, content (f s) = report) :
    LeavesReport t check path status content ((do let s ← c; return f s : Task α) t) := by
  show LeavesReport t check path status content (EStateM.bind c (fun s => EStateM.pure (f s)) t)
  unfold EStateM.bind
  cases hct : c t with
  | error e t' => rw [hct] at hc; exact hc
  | ok s t' =>
    rw [hct] at hc
    unfold LeavesReport at hc ⊢
    simpa only [EStateM.pure, hs, hr, id] using hc

end Task

/-- A check looks at the report that is there. -/
theorem finish_check (path content : String) :
    finish path content true = do
      let existing ← Task.look fun t => readReport t path
      return if existing.any fun r => Report.same r content then .upToDate else .stale := rfl

/-- The last step of a task leaves the tree as the task should. -/
theorem finish_leaves (t : FileTree) {path : String} (hp : Path.IsNormal path) (content : String)
    (check : Bool) :
    Task.LeavesReport t check path id (fun _ => content) (finish path content check t) := by
  cases check with
  | true =>
    rw [finish_check]
    exact .look_bind fun _ _ => rfl
  | false =>
    obtain ⟨l, hl, rfl⟩ := hp
    have hw := FileTree.write_spec t hl (Text.Utf8.encode content.toList)
    show Task.LeavesReport t false _ id _
      (EStateM.bind (writeReport (Path.ofLocation l) content) (fun _ => EStateM.pure .written) t)
    unfold EStateM.bind writeReport Task.change EStateM.adaptExcept
    cases hwt : FileTree.write (Path.ofLocation l) (Text.Utf8.encode content.toList) t with
    | error f t' => rw [hwt] at hw; exact hw
    | ok u t' => rw [hwt] at hw; exact ⟨rfl, hw⟩

theorem specTask_leaves (yaml : YamlReader) (t : FileTree) {s : Settings}
    (hp : Path.IsNormal s.outputPath) (instant : Option Int) (check : Bool) :
    Task.LeavesReport t check s.outputPath SpecResult.status SpecResult.content
      (specTask yaml s instant check t) := by
  unfold specTask
  refine .look_bind fun document _ => ?_
  refine .map (finish_leaves t hp _ check) (fun _ => ?_) fun _ => ?_
  · dsimp only
  · dsimp only

theorem codeTask_leaves (t : FileTree) {s : Settings} (hp : Path.IsNormal s.codeOutputPath)
    (instant : Option Int) (check : Bool) :
    Task.LeavesReport t check s.codeOutputPath CodeResult.status CodeResult.content
      (codeTask s instant check t) := by
  unfold codeTask
  refine .look_bind fun survey _ => .look_bind fun coverage _ => ?_
  refine .map (finish_leaves t hp _ check) (fun _ => ?_) fun _ => ?_
  · dsimp only
  · dsimp only

/-! ### Runs -/

/-- A run that leaves no traces but its report: where it only checks or fails, the tree is as it
was; where it writes, the path reads as the bytes of the report, and nothing else has changed but
that directories have been made where they were missing above it. -/
structure Run.Tidy (run : Run α) (t : FileTree) (check : Bool) (path : String)
    (status : α → Status) (content : α → String) : Prop where
  of_check : check = true → run.tree = t
  of_error : ∀ f, run.result = .error f → run.tree = t
  of_ok : check = false → ∀ r, run.result = .ok r →
    status r = .written ∧
      run.tree.read path = .ok (Text.Utf8.encode (content r).toList) ∧
      ∃ l d, t.Wrote run.tree path (Text.Utf8.encode (content r).toList) l d

theorem FileTree.Wrote.read {t t' : FileTree} {path : String} {bytes : List UInt8} {l d : Location}
    (w : t.Wrote t' path bytes l d) : t'.read path = .ok bytes := by
  rw [FileTree.read, w.found]

theorem tidy_runOn {task : Task α} {t : FileTree} {check : Bool} {path : String}
    {status : α → Status} {content : α → String} (warnings : List Log.Entry) (message : α → String)
    (h : Task.LeavesReport t check path status content (task t)) :
    (task.runOn t warnings message).Tidy t check path status content := by
  unfold Task.runOn
  cases hr : task t with
  | error f t' =>
    rw [hr] at h
    exact ⟨fun _ => h, fun _ _ => h, fun _ r hk => by cases hk⟩
  | ok r t' =>
    rw [hr] at h
    cases check with
    | true => exact ⟨fun _ => h, fun _ hk => (by cases hk), fun hc => by cases hc⟩
    | false =>
      refine ⟨fun hc => (by cases hc), fun _ hk => (by cases hk), fun _ r' hk => ?_⟩
      cases hk
      obtain ⟨hs, l, d, w⟩ := h
      exact ⟨hs, w.read, l, d, w⟩

/-- **No partial output, and a check is read-only.** -/
theorem generate_tidy (yaml : YamlReader) (t : FileTree) (s : Settings) (hs : s.IsNormal)
    (instant : Option Int) (check : Bool) :
    (generateSpec yaml t s instant check).Tidy t check s.outputPath SpecResult.status
      SpecResult.content ∧
    (generateCode t s instant check).Tidy t check s.codeOutputPath CodeResult.status
      CodeResult.content :=
  ⟨tidy_runOn _ _ (specTask_leaves yaml t hs.outputPath instant check),
    tidy_runOn _ _ (codeTask_leaves t hs.codeOutputPath instant check)⟩

/-- The directory for the reports of the sample lies behind a link and has to be made. -/
theorem generate_tidy_sample :
    sampleSettings.IsNormal ∧
      (generateSpec Yaml.reader sampleTree sampleSettings (some 0) false).Tidy sampleTree false
        "/p/docs/new/API.md" SpecResult.status SpecResult.content ∧
      (generateCode sampleTree sampleSettings (some 0) false).Tidy sampleTree false
        "/p/docs/new/CODE.md" CodeResult.status CodeResult.content :=
  ⟨sampleSettings_isNormal,
    generate_tidy Yaml.reader sampleTree sampleSettings sampleSettings_isNormal (some 0) false⟩

end ApiReport
