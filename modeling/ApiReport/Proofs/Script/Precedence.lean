import ApiReport.Proofs.CommandLine
import ApiReport.Proofs.Environment
import ApiReport.Yaml.Document

/-!
# Where the settings of a script come from

For each setting a script takes the value of the last occurrence of its flag, else its environment
variable without the blanks around it, if anything is left, else the standard value. A variable is
what the last environment file with an assignment to it says, also if that is nothing, and which
files those are is settled by the environment in which the script starts.

Key definitions: `Script.flag?`, `Script.text?`, `Script.chosen`, `Script.outcome`.
Key theorems: `Script.raw_eq_chosen`, `Script.run_of_chosen`.
-/
namespace ApiReport.Script

open CommandLine (lastValue?)

variable {script : Script} {t : FileTree} {workingDir generatorDir : String} {env : Environment}
  {arguments : List String} {options : CommandLine.Options}

/-- The flag that gives a setting to a script. -/
def flag? (script : Script) : Settings.Key → Option String
  | .rootDir => some "--root"
  | .specPath => some "--spec"
  | .scanRoots => some "--scan"
  | .controllerDirs => some "--controllers"
  | .timeZone => some "--time-zone"
  | key => if key = script.outputKey then some "--out" else none

/-- The text from which a setting is taken: what follows the last occurrence of its flag, or else
its variable in the environment that the files leave, trimmed and not empty. -/
def text? (script : Script) (t : FileTree) (workingDir : String) (env : Environment)
    (arguments : List String) (key : Settings.Key) : Option String :=
  ((script.flag? key).bind (lastValue? · arguments)).or
    (((Environment.effective? t workingDir env key.envName).map Text.trimmed).filter (· ≠ ""))

/-- The value of a setting before it is checked: the one of its text, or else the standard one. -/
def chosen (script : Script) (t : FileTree) (workingDir : String) (env : Environment)
    (arguments : List String) (key : Settings.Key) : Value :=
  ((script.text? t workingDir env arguments key).map (CommandLine.value key)).getD
    (key.standard workingDir)

theorem valueKey?_eq_some (script : Script) (key : Settings.Key) (argument : String) :
    CommandLine.valueKey? script.outputKey argument = some key ↔
      script.flag? key = some argument := by
  constructor
  · intro h
    unfold CommandLine.valueKey? at h
    split at h
    case h_3 =>
      cases h
      cases script <;> rfl
    case h_7 => cases h
    all_goals
      cases h
      rfl
  · intro h
    unfold flag? at h
    split at h
    case h_6 =>
      split at h
      · next hkey =>
        cases h
        rw [hkey]
        rfl
      · cases h
    all_goals
      cases h
      rfl

/-- The environment gives values as the command line does. -/
theorem environmentValue?_eq (env : Environment) (key : Settings.Key) :
    Settings.environmentValue? env key =
      (Settings.envText? env key.envName).map (CommandLine.value key) := by
  unfold Settings.environmentValue? CommandLine.value Settings.Key.textList
  simp only [List.map_map]
  rfl

theorem raw_eq_chosen
    (hother : ∀ file ∈ Environment.fileNames env.stage,
      t.exists? (Path.within generatorDir file) = false)
    (hparse : CommandLine.parse script.outputKey arguments = .ok options) (key : Settings.Key) :
    Settings.raw workingDir (Environment.load t [workingDir, generatorDir] env).env options.given
      key = script.chosen t workingDir env arguments key := by
  have hget : options.given.get? key =
      ((script.flag? key).bind (lastValue? · arguments)).map (CommandLine.value key) := by
    rw [CommandLine.get?_parseFrom (script.valueKey?_eq_some key) hparse]
    exact Option.or_none
  have hgiven : Settings.givenValue? options.given key =
      ((script.flag? key).bind (lastValue? · arguments)).map (CommandLine.value key) := by
    unfold Settings.givenValue?
    rw [hget]
    cases (script.flag? key).bind (lastValue? · arguments) with
    | none => rfl
    | some argument =>
      rw [Option.map_some]
      split
      · next h => exact absurd (Option.some.inj h) (CommandLine.value_ne_null key argument)
      · rfl
  have henv : Settings.envText? (Environment.load t [workingDir, generatorDir] env).env
        key.envName =
      ((Environment.effective? t workingDir env key.envName).map Text.trimmed).filter (· ≠ "") := by
    rw [Settings.envText?, Environment.lookup_load hother]
  unfold Settings.raw chosen text?
  rw [hgiven, environmentValue?_eq, henv]
  generalize (script.flag? key).bind (lastValue? · arguments) = given?
  generalize Option.filter _ (Option.map Text.trimmed _) = held?
  cases given? <;> rfl

/-- The outcome of a script with values for its settings that are still to be checked. -/
def outcome (script : Script) (yaml : YamlReader) (t : FileTree) (workingDir : String)
    (raw : Settings.Key → Value) (instant : Option Int) (check : Bool) : Outcome :=
  match Settings.check raw with
  | .fine s => script.generate yaml t (s.resolve workingDir) instant check
  | .faulty problems => script.refused t (Failure.settings problems).describe

/-- **Where the settings of a run come from.** A script whose arguments are accepted and do not ask
for help runs with the chosen values, which are checked and then resolved. The files that it reads
into its environment are those for the stage in which it starts, whatever they assign. -/
theorem run_of_chosen (yaml : YamlReader) (workingDir : String)
    (hother : ∀ file ∈ Environment.fileNames env.stage,
      t.exists? (Path.within generatorDir file) = false)
    (hparse : CommandLine.parse script.outputKey arguments = .ok options)
    (hhelp : options.help = false) (instant : Option Int) :
    let loaded := Environment.load t [workingDir, generatorDir] env
    loaded.files =
        (((Environment.fileNames env.stage).map (Path.within workingDir)).filter
          t.exists?).eraseDups ∧
      (∀ key, Settings.raw workingDir loaded.env options.given key =
        script.chosen t workingDir env arguments key) ∧
      script.run yaml t workingDir [workingDir, generatorDir] env arguments instant =
        let o := script.outcome yaml t workingDir (script.chosen t workingDir env arguments) instant
          options.check
        { o with output := loaded.lines ++ o.output } := by
  intro loaded
  have hraw : ∀ key, Settings.raw workingDir loaded.env options.given key =
      script.chosen t workingDir env arguments key := raw_eq_chosen hother hparse
  refine ⟨Environment.files_load_pair hother, hraw, ?_⟩
  have hmain : script.main yaml t workingDir loaded.env arguments instant =
      script.outcome yaml t workingDir (script.chosen t workingDir env arguments) instant
        options.check := by
    unfold main outcome Settings.load
    rw [hparse, ← funext hraw]
    dsimp only
    rw [if_neg (by simp [hhelp])]
    cases Settings.check (Settings.raw workingDir loaded.env options.given) <;> rfl
  unfold run
  rw [← hmain]

/-! ### A sample -/

/-- Files for two stages. The first one changes the stage, and the second one takes back an
assignment of the first. -/
def stagedTree : FileTree :=
  ((((FileTree.empty.put ["w"] .directory (by decide)).put
    ["w", ".env"] (.file (Text.Utf8.encode
      "API_DOCS_ENV=test\nAPI_DOCS_SPEC_PATH=a.json\nAPI_DOCS_SCAN_ROOTS='x, ,y'".toList))
      (by decide)).put
    ["w", ".env.live"] (.file (Text.Utf8.encode "API_DOCS_SPEC_PATH=".toList)) (by decide)).put
    ["w", ".env.live.local"] (.file (Text.Utf8.encode "API_DOCS_ROOT=/r".toList)) (by decide)).put
    ["w", ".env.test"] (.file (Text.Utf8.encode "API_DOCS_SPEC_PATH=b.json".toList)) (by decide)

/-- The environment in which a run for one of the stages starts. -/
def stagedEnv : Environment := [
  ("API_DOCS_ENV", " live "), ("API_DOCS_SPEC_PATH", "c.json"),
  ("API_DOCS_CODE_OUTPUT_PATH", " CODE.md ")]

/-- Arguments that give one setting twice. -/
def stagedArguments : List String :=
  ["--root", "/p", "--check", "--root", "/q", "--controllers", "c,,d"]

theorem run_of_chosen_sample :
    (∀ file ∈ Environment.fileNames stagedEnv.stage,
      stagedTree.exists? (Path.within "/g" file) = false) ∧
      ∃ options, CommandLine.parse code.outputKey stagedArguments = .ok options ∧
        options.help = false ∧
        let loaded := Environment.load stagedTree ["/w", "/g"] stagedEnv
        let raw := Settings.raw "/w" loaded.env options.given
        loaded.files = ["/w/.env", "/w/.env.live", "/w/.env.live.local"] ∧
          raw .rootDir = .text "/q" ∧ raw .specPath = .text "docs/architecture/openapi.json" ∧
          raw .codeOutputPath = .text "CODE.md" ∧
          raw .scanRoots = Settings.Key.textList ["x", "y"] ∧
          raw .controllerDirs = Settings.Key.textList ["c", "d"] := by
  have hother : ∀ file ∈ Environment.fileNames stagedEnv.stage,
      stagedTree.exists? (Path.within "/g" file) = false := by decide +kernel
  obtain ⟨options, hparse, hhelp⟩ : ∃ options,
      CommandLine.parse code.outputKey stagedArguments = .ok options ∧ options.help = false :=
    ⟨_, rfl, rfl⟩
  obtain ⟨hfiles, hraw, -⟩ := run_of_chosen Yaml.reader "/w" hother hparse hhelp none
  have hroot : code.text? stagedTree "/w" stagedEnv stagedArguments .rootDir = some "/q" := by
    decide +kernel
  have hspec : code.text? stagedTree "/w" stagedEnv stagedArguments .specPath = none := by
    decide +kernel
  have hout : code.text? stagedTree "/w" stagedEnv stagedArguments .codeOutputPath =
      some "CODE.md" := by decide +kernel
  have hscan : code.text? stagedTree "/w" stagedEnv stagedArguments .scanRoots =
      some "x, ,y" := by decide +kernel
  have hcontrollers : code.text? stagedTree "/w" stagedEnv stagedArguments .controllerDirs =
      some "c,,d" := by decide +kernel
  refine ⟨hother, options, hparse, hhelp, hfiles.trans (by decide +kernel), ?_⟩
  simp only [hraw, chosen, hroot, hspec, hout, hscan, hcontrollers]
  exact ⟨rfl, rfl, rfl, rfl, rfl⟩

end ApiReport.Script
