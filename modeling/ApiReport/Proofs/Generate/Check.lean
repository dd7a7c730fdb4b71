import ApiReport.Proofs.Generate.Recheck
import ApiReport.Proofs.Report.Same

/-!
# What a check says

A check reads the text that its output path leads to and compares it with what it has rendered. It
calls the report up to date if there is such a text and it is the rendered one with its second line
kept, replaced by another stamp, or left out; everything else it calls stale, also that nothing is
there.

Key definitions: `HasVerdict`.
Key theorems: `readReport_eq_ok`, `finish_check_eq_ok`, `check_verdict`.
-/
namespace ApiReport

variable {t t' : FileTree} {path content : String} {status : Status}

/-- The verdict of a check on the text that a path leads to, the rendered report having a title, a
stamp and a rest. -/
structure HasVerdict (t : FileTree) (path content : String) (status : Status) (title rest : String) :
    Prop where
  upToDate_iff : status = .upToDate ↔ t.exists? path = true ∧
    ∃ existing, t.readText path = .ok existing ∧ Report.IsRestamped content title rest existing
  stale_iff : status = .stale ↔ ¬ (t.exists? path = true ∧
    ∃ existing, t.readText path = .ok existing ∧ Report.IsRestamped content title rest existing)

/-- Nothing is read where nothing is; else the text that is there has to be read. -/
theorem readReport_eq_ok {existing : Option String} :
    readReport t path = .ok existing ↔
      (t.exists? path = false ∧ existing = none) ∨
        (t.exists? path = true ∧ ∃ s, t.readText path = .ok s ∧ existing = some s) := by
  unfold readReport
  cases t.exists? path with
  | false => simp [eq_comm]
  | true =>
    cases t.readText path with
    | error f => simp [Except.map, Except.mapError]
    | ok s => simp [Except.map, Except.mapError, eq_comm]

theorem finish_check_eq_ok :
    finish path content true t = .ok status t' ↔ t' = t ∧ ∃ existing,
      readReport t path = .ok existing ∧
        status = if existing.any fun r => Report.same r content then .upToDate else .stale := by
  rw [finish_check, Task.bind_eq_ok]
  simp only [Task.look_eq_ok, Task.pure_eq_ok]
  constructor
  · rintro ⟨existing, _, ⟨hread, rfl⟩, hstatus, rfl⟩
    exact ⟨rfl, existing, hread, hstatus⟩
  · rintro ⟨rfl, existing, hread, hstatus⟩
    exact ⟨existing, t', ⟨hread, rfl⟩, hstatus, rfl⟩

/-- The last step of a check gives the verdict. -/
theorem hasVerdict_of_finish {title stamp rest : String}
    (hparts : Report.Parts content title stamp rest)
    (h : finish path content true t = .ok status t') :
    HasVerdict t path content status title rest := by
  obtain ⟨-, existing, hread, hstatus⟩ := finish_check_eq_ok.1 h
  have hsame : existing.any (fun r => Report.same r content) = true ↔ t.exists? path = true ∧
      ∃ s, t.readText path = .ok s ∧ Report.IsRestamped content title rest s := by
    rcases readReport_eq_ok.1 hread with ⟨hmissing, rfl⟩ | ⟨hthere, s, hs, rfl⟩
    · simp [hmissing]
    · rw [Option.any_some, hparts.same_iff, hs]
      simp [hthere]
  by_cases hany : existing.any (fun r => Report.same r content) = true
  · rw [if_pos hany] at hstatus
    subst hstatus
    exact ⟨iff_of_true rfl (hsame.1 hany), iff_of_false nofun fun hn => hn (hsame.1 hany)⟩
  · rw [if_neg hany] at hstatus
    subst hstatus
    exact ⟨iff_of_false nofun fun hr => hany (hsame.2 hr),
      iff_of_true rfl fun hr => hany (hsame.2 hr)⟩

/-- **What a check says.** The rendered report has a title line and, whatever the instant and the
zone, a stamp as its second line. A check that returns calls the report up to date if its output
path leads to a text that is the rendered one with the second line kept, replaced by another stamp,
or left out, and stale in every other case. -/
theorem check_verdict (yaml : YamlReader) (t : FileTree) (s : Settings) (instant : Option Int) :
    (∀ r, (generateSpec yaml t s instant true).result = .ok r →
      ∃ title rest, Report.Parts r.content title (Report.stampLine instant s.timeZone) rest ∧
        HasVerdict t s.outputPath r.content r.status title rest) ∧
    (∀ r, (generateCode t s instant true).result = .ok r →
      ∃ title rest, Report.Parts r.content title (Report.stampLine instant s.timeZone) rest ∧
        HasVerdict t s.codeOutputPath r.content r.status title rest) := by
  constructor
  · intro r hr
    obtain ⟨document, status, -, rfl, hfinish⟩ := specTask_eq_ok.1 (Task.runOn_eq_ok.1 hr)
    dsimp only [specResult] at hfinish ⊢
    obtain ⟨rest, hparts⟩ := Spec.parts_report (Spec.operations document) instant s.timeZone
    exact ⟨_, rest, hparts, hasVerdict_of_finish hparts hfinish⟩
  · intro r hr
    obtain ⟨survey, coverage, status, -, -, rfl, hfinish⟩ :=
      codeTask_eq_ok.1 (Task.runOn_eq_ok.1 hr)
    dsimp only [codeResult] at hfinish ⊢
    obtain ⟨rest, hparts⟩ := Route.parts_report survey.routes coverage.withoutRoutes
      { instant, zone := s.timeZone, rootDir := s.rootDir, routesFileName := s.routesFileName }
    exact ⟨_, rest, hparts, hasVerdict_of_finish hparts hfinish⟩

/-! ### A sample -/

/-- The sample with the report on its document written, and none on its routes. -/
def checkedSample : FileTree :=
  (generateSpec Yaml.reader sampleTree sampleSettings (some 0) false).tree

/-- A check without an instant compares the report on the document, and misses the one on routes. -/
theorem check_verdict_sample :
    (∃ r title rest,
      (generateSpec Yaml.reader checkedSample sampleSettings none true).result = .ok r ∧
      checkedSample.exists? "/p/docs/new/API.md" = true ∧
      Report.Parts r.content title (Report.stampLine none none) rest ∧
      HasVerdict checkedSample "/p/docs/new/API.md" r.content r.status title rest) ∧
    ∃ r title rest, (generateCode checkedSample sampleSettings none true).result = .ok r ∧
      checkedSample.exists? "/p/docs/new/CODE.md" = false ∧ r.status = .stale ∧
      Report.Parts r.content title (Report.stampLine none none) rest ∧
      HasVerdict checkedSample "/p/docs/new/CODE.md" r.content r.status title rest := by
  obtain ⟨hspec, hcode⟩ := check_verdict Yaml.reader checkedSample sampleSettings none
  constructor
  · obtain ⟨r, hr⟩ : ∃ r,
        (generateSpec Yaml.reader checkedSample sampleSettings none true).result = .ok r :=
      exists_of_isSome (by decide +kernel)
    obtain ⟨title, rest, hparts, hverdict⟩ := hspec r hr
    exact ⟨r, title, rest, hr, by decide +kernel, hparts, hverdict⟩
  · obtain ⟨r, hr⟩ : ∃ r, (generateCode checkedSample sampleSettings none true).result = .ok r :=
      exists_of_isSome (by decide +kernel)
    have hmissing : checkedSample.exists? "/p/docs/new/CODE.md" = false := by decide +kernel
    obtain ⟨title, rest, hparts, hverdict⟩ := hcode r hr
    have hstale : r.status = .stale := by
      refine hverdict.stale_iff.2 fun h => ?_
      rw [show sampleSettings.codeOutputPath = "/p/docs/new/CODE.md" from rfl, hmissing] at h
      cases h.1
    exact ⟨r, title, rest, hr, hmissing, hstale, hparts, hverdict⟩

end ApiReport
