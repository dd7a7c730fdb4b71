import ApiReport.Proofs.CommandLine
import ApiReport.Proofs.Generate.Recheck
import ApiReport.Script

/-!
# What the exit code tells

A script exits with zero if it has done what its arguments ask for: it has shown its help, written
its report, or found it up to date. It exits with one in every other case, and then it has changed
nothing. A stale report is found only by a check, which changes nothing either.

Key definitions: `Script.status`, `Script.Outcome.Tells`, `Script.Succeeds`, `Script.Fails`.
Key theorems: `Script.generate_tells`, `Script.main_cases`, `Script.run_exitCode`.
-/
namespace ApiReport

variable {yaml : YamlReader} {t t' : FileTree} {s : Settings} {instant : Option Int} {check : Bool}

/-! ### The status of a report -/

/-- A report that is checked is up to date or stale, any other is written. -/
theorem status_of_finish {path content : String} {status : Status}
    (h : finish path content check t = .ok status t') :
    if check then status = .upToDate ∨ status = .stale else status = .written := by
  cases check with
  | true =>
    rw [finish_check, Task.bind_eq_ok] at h
    obtain ⟨existing, _, -, h⟩ := h
    obtain ⟨rfl, -⟩ := Task.pure_eq_ok.1 h
    rw [if_pos rfl]
    split
    · exact .inl rfl
    · exact .inr rfl
  | false =>
    obtain ⟨_, _, -, h⟩ := Task.bind_eq_ok.1 h
    exact (Task.pure_eq_ok.1 h).1

namespace Script

variable {script : Script} {workingDir : String} {envDirs arguments : List String}
  {env : Environment}

/-- What becomes of the report of a script, if its run does not fail. -/
def status (script : Script) (yaml : YamlReader) (t : FileTree) (s : Settings)
    (instant : Option Int) (check : Bool) : Except Failure Status :=
  match script with
  | spec => (generateSpec yaml t s instant check).result.map SpecResult.status
  | code => (generateCode t s instant check).result.map CodeResult.status

theorem status_of_eq_ok {status : Status} (h : script.status yaml t s instant check = .ok status) :
    if check then status = .upToDate ∨ status = .stale else status = .written := by
  cases script with
  | spec =>
    obtain ⟨r, hr, rfl⟩ := map_eq_ok.1 h
    obtain ⟨_, status, -, rfl, hfinish⟩ := specTask_eq_ok.1 (Task.runOn_eq_ok.1 hr)
    exact status_of_finish hfinish
  | code =>
    obtain ⟨r, hr, rfl⟩ := map_eq_ok.1 h
    obtain ⟨_, _, status, -, -, rfl, hfinish⟩ := codeTask_eq_ok.1 (Task.runOn_eq_ok.1 hr)
    exact status_of_finish hfinish

/-! ### The outcome of a run -/

/-- What an outcome tells of a run on a tree: either its report has become what it should, or the
run has failed or found its report stale, and the tree is as it was. A check never changes it. -/
structure Outcome.Tells (o : Outcome) (t : FileTree) (check : Bool)
    (status : Except Failure Status) : Prop where
  cases : (o.exitCode = 0 ∧ status = .ok (if check then .upToDate else .written)) ∨
    (o.exitCode = 1 ∧ o.tree = t ∧ (status = .ok .stale ∨ ∃ f, status = .error f))
  of_check : check = true → o.tree = t

theorem concluded_tells {α : Type} {run : Run α} {status : α → Status} {content : α → String}
    {outputPath : String} (htidy : run.Tidy t check outputPath status content)
    (hstatus : ∀ st, run.result.map status = .ok st →
      if check then st = .upToDate ∨ st = .stale else st = .written)
    (script : Script) (path : α → String) (closing : α → List Log.Line) :
    (script.concluded run path status closing).Tells t check (run.result.map status) := by
  unfold concluded
  cases hresult : run.result with
  | error f =>
    have htree := htidy.of_error f hresult
    exact ⟨.inr ⟨rfl, htree, .inr ⟨f, rfl⟩⟩, fun _ => htree⟩
  | ok r =>
    have hr := hstatus (status r) (by rw [hresult]; rfl)
    dsimp only [Except.map]
    cases check with
    | true =>
      have htree := htidy.of_check rfl
      rcases hr with hr | hr
      · rw [hr, if_neg (by decide)]
        exact ⟨.inl ⟨rfl, rfl⟩, fun _ => htree⟩
      · rw [hr, if_pos rfl]
        exact ⟨.inr ⟨rfl, htree, .inl rfl⟩, fun _ => htree⟩
    | false =>
      rw [if_neg (by decide)] at hr
      rw [hr, if_neg (by decide)]
      exact ⟨.inl ⟨rfl, rfl⟩, nofun⟩

theorem generate_tells (hs : s.IsNormal) (script : Script) :
    (script.generate yaml t s instant check).Tells t check
      (script.status yaml t s instant check) := by
  cases script with
  | spec =>
    refine concluded_tells (tidy_runOn _ _ (specTask_leaves yaml t hs.outputPath instant check)) ?_
      _ _ _
    exact fun st hst => status_of_eq_ok (show spec.status yaml t s instant check = .ok st from hst)
  | code =>
    refine concluded_tells (tidy_runOn _ _ (codeTask_leaves t hs.codeOutputPath instant check)) ?_
      _ _ _
    exact fun st hst => status_of_eq_ok (show code.status yaml t s instant check = .ok st from hst)

/-! ### The outcome of a script -/

/-- What a script is to do: its arguments are accepted, and they ask for help, or the settings are
valid and the report is written, or found up to date if it is to be checked. -/
def Succeeds (script : Script) (yaml : YamlReader) (t : FileTree) (workingDir : String)
    (env : Environment) (arguments : List String) (instant : Option Int) : Prop :=
  ∃ options, CommandLine.parse script.outputKey arguments = .ok options ∧
    (options.help = true ∨ ∃ s, Settings.load workingDir env options.given = .ok s ∧
      script.status yaml t s instant options.check =
        .ok (if options.check then .upToDate else .written))

/-- How a script may fail. -/
inductive Fails (script : Script) (yaml : YamlReader) (t : FileTree) (workingDir : String)
    (env : Environment) (arguments : List String) (instant : Option Int) : Prop
  | arguments {f} : CommandLine.parse script.outputKey arguments = .error f →
      Fails script yaml t workingDir env arguments instant
  | settings {options problems} : CommandLine.parse script.outputKey arguments = .ok options →
      options.help = false → Settings.load workingDir env options.given = .error problems →
      Fails script yaml t workingDir env arguments instant
  | run {options s f} : CommandLine.parse script.outputKey arguments = .ok options →
      options.help = false → Settings.load workingDir env options.given = .ok s →
      script.status yaml t s instant options.check = .error f →
      Fails script yaml t workingDir env arguments instant
  | stale {options s} : CommandLine.parse script.outputKey arguments = .ok options →
      options.help = false → Settings.load workingDir env options.given = .ok s →
      script.status yaml t s instant options.check = .ok .stale →
      Fails script yaml t workingDir env arguments instant

theorem succeeds_iff_of_parse {options : CommandLine.Options}
    (hparse : CommandLine.parse script.outputKey arguments = .ok options)
    (hhelp : options.help = false) :
    script.Succeeds yaml t workingDir env arguments instant ↔
      ∃ s, Settings.load workingDir env options.given = .ok s ∧
        script.status yaml t s instant options.check =
          .ok (if options.check then .upToDate else .written) := by
  unfold Succeeds
  simp [hparse, hhelp]

theorem succeeds_iff_of_load {options : CommandLine.Options}
    (hparse : CommandLine.parse script.outputKey arguments = .ok options)
    (hhelp : options.help = false) (hload : Settings.load workingDir env options.given = .ok s) :
    script.Succeeds yaml t workingDir env arguments instant ↔
      script.status yaml t s instant options.check =
        .ok (if options.check then .upToDate else .written) := by
  rw [succeeds_iff_of_parse hparse hhelp, hload]
  simp

theorem Fails.not_succeeds (h : script.Fails yaml t workingDir env arguments instant) :
    ¬ script.Succeeds yaml t workingDir env arguments instant := by
  cases h with
  | arguments hparse => simp [Succeeds, hparse]
  | settings hparse hhelp hload =>
    rw [succeeds_iff_of_parse hparse hhelp, hload]
    simp
  | run hparse hhelp hload hstatus =>
    rw [succeeds_iff_of_load hparse hhelp hload, hstatus]
    exact nofun
  | @stale options _ hparse hhelp hload hstatus =>
    rw [succeeds_iff_of_load hparse hhelp hload, hstatus]
    cases options.check with
    | true => exact nofun
    | false => exact nofun

/-- A script succeeds, or it fails and leaves the tree as it was. -/
theorem main_cases (script : Script) (yaml : YamlReader) (t : FileTree) (workingDir : String)
    (env : Environment) (arguments : List String) (instant : Option Int) :
    let o := script.main yaml t workingDir env arguments instant
    (o.exitCode = 0 ∧ script.Succeeds yaml t workingDir env arguments instant) ∨
      (o.exitCode = 1 ∧ o.tree = t ∧ script.Fails yaml t workingDir env arguments instant) := by
  unfold main
  cases hparse : CommandLine.parse script.outputKey arguments with
  | error f => exact .inr ⟨rfl, rfl, .arguments hparse⟩
  | ok options =>
    dsimp only
    by_cases hhelp : options.help = true
    · rw [if_pos hhelp]
      exact .inl ⟨rfl, options, hparse, .inl hhelp⟩
    · rw [if_neg hhelp]
      rw [Bool.not_eq_true] at hhelp
      cases hload : Settings.load workingDir env options.given with
      | error problems => exact .inr ⟨rfl, rfl, .settings hparse hhelp hload⟩
      | ok s =>
        have htells : (script.generate yaml t s instant options.check).Tells t options.check
            (script.status yaml t s instant options.check) :=
          generate_tells (Settings.load_isNormal hload) script
        rcases htells.cases with ⟨hcode, hstatus⟩ | ⟨hcode, htree, hstatus | ⟨f, hstatus⟩⟩
        · exact .inl ⟨hcode, options, hparse, .inr ⟨s, hload, hstatus⟩⟩
        · exact .inr ⟨hcode, htree, .stale hparse hhelp hload hstatus⟩
        · exact .inr ⟨hcode, htree, .run hparse hhelp hload hstatus⟩

/-- Neither help nor a check changes the tree. -/
theorem main_tree {options : CommandLine.Options}
    (hparse : CommandLine.parse script.outputKey arguments = .ok options)
    (hasks : options.check = true ∨ options.help = true) :
    (script.main yaml t workingDir env arguments instant).tree = t := by
  rw [main, hparse]
  dsimp only
  by_cases hhelp : options.help = true
  · rw [if_pos hhelp]
  · rw [if_neg hhelp]
    cases hload : Settings.load workingDir env options.given with
    | error problems => rfl
    | ok s =>
      exact (generate_tells (Settings.load_isNormal hload) script).of_check
        (hasks.resolve_right hhelp)

/-- **The exit code tells the outcome.** It is zero if and only if the script has succeeded, and one
if and only if it has failed, in which case nothing has changed. Nothing changes either where the
arguments are accepted and hold the flag for a check or for help. -/
theorem run_exitCode (script : Script) (yaml : YamlReader) (t : FileTree) (workingDir : String)
    (envDirs : List String) (env : Environment) (arguments : List String) (instant : Option Int) :
    let started := (Environment.load t envDirs env).env
    let o := script.run yaml t workingDir envDirs env arguments instant
    (o.exitCode = 0 ∨ o.exitCode = 1) ∧
      (o.exitCode = 0 ↔ script.Succeeds yaml t workingDir started arguments instant) ∧
      (o.exitCode = 1 ↔ script.Fails yaml t workingDir started arguments instant) ∧
      (o.exitCode = 1 → o.tree = t) ∧
      ∀ options, CommandLine.parse script.outputKey arguments = .ok options →
        (options.check = true ↔ "--check" ∈ arguments) ∧
        ("--help" ∈ arguments → options.help = true) ∧
        (options.check = true ∨ options.help = true → o.tree = t) := by
  intro started o
  have htree : ∀ options, CommandLine.parse script.outputKey arguments = .ok options →
      options.check = true ∨ options.help = true → o.tree = t := fun _ hparse => main_tree hparse
  rcases script.main_cases yaml t workingDir started arguments instant with
    ⟨hcode, hdone⟩ | ⟨hcode, hkept, hfails⟩
  · have hzero : o.exitCode = 0 := hcode
    rw [hzero]
    refine ⟨.inl rfl, iff_of_true rfl hdone, iff_of_false nofun ?_, nofun, fun options hparse => ?_⟩
    · exact fun hfails => hfails.not_succeeds hdone
    · exact ⟨CommandLine.check_parse hparse, CommandLine.help_parse hparse, htree options hparse⟩
  · have hone : o.exitCode = 1 := hcode
    rw [hone]
    refine ⟨.inr rfl, iff_of_false nofun ?_, iff_of_true rfl hfails, fun _ => hkept,
      fun options hparse => ?_⟩
    · exact hfails.not_succeeds
    · exact ⟨CommandLine.check_parse hparse, CommandLine.help_parse hparse, htree options hparse⟩

end Script

end ApiReport
