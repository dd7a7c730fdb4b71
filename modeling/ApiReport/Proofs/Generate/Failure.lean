import ApiReport.Proofs.Route.Coverage
import ApiReport.Proofs.Value.Proper

/-!
# How runs fail

Each step of a run either succeeds, or fails with a name of its own, or lets a failure escape that
has no name. Of the steps one after the other the first that does not succeed decides. Two failures
escape. One is the fault of the file system where a directory is read as a file. Source files are
read where they have been listed, so that there is a file, but the description document and, in a
check, the report that is there are read wherever something exists. The other one is the refusal of
a description document whose value is an object and no mapping, which is thrown as it is. Of JSON
there are no such values, so it takes a YAML text. Whatever goes wrong in writing a report is a
failure of the output.

Key definitions: `Failure.IsNamed`, `NamedUnless`, `FileTree.Blocks`, `Spec.Refuses`,
`Spec.LoadEscapes`, `Task.outcome`.
Key theorems: `NamedUnless.bind`, `Spec.namedUnless_load`, `namedUnless_finish`,
`namedUnless_specTask`, `namedUnless_codeTask`, `generate_namedUnless`,
`not_always_named`.
-/
namespace ApiReport

variable {α β : Type} {check : Bool} {yaml : YamlReader} {t : FileTree} {s : Settings}
  {path : String}

/-- A failure with a name: of the input, or, unless the run only checks, of the output. -/
def Failure.IsNamed (check : Bool) (f : Failure) : Prop :=
  f.kind? = some .input ∨ check = false ∧ f.kind? = some .output

/-- What becomes of a step: a failure that `escapes` is what it ends in, and if there is none, it
succeeds, or its failure has a name. -/
structure NamedUnless (check : Bool) (x : Except Failure α) (escapes : Failure → Prop) : Prop where
  escaped : ∀ f, escapes f → x = .error f
  named : (∀ f, ¬ escapes f) → (∃ a, x = .ok a) ∨ ∃ f, x = .error f ∧ f.IsNamed check

namespace NamedUnless

variable {x : Except Failure α} {p q : Failure → Prop}

theorem ok (a : α) : NamedUnless check (.ok a) fun _ => False :=
  ⟨fun _ => False.elim, fun _ => .inl ⟨a, rfl⟩⟩

theorem error {f : Failure} (h : f.IsNamed check) :
    NamedUnless check (.error f : Except Failure α) fun _ => False :=
  ⟨fun _ => False.elim, fun _ => .inr ⟨f, rfl, h⟩⟩

theorem escape (f : Failure) : NamedUnless check (.error f : Except Failure α) (· = f) :=
  ⟨fun _ h => h ▸ rfl, fun h => (h f rfl).elim⟩

theorem congr (h : NamedUnless check x p) (hpq : ∀ f, p f ↔ q f) : NamedUnless check x q := by
  rwa [show p = q from funext fun f => propext (hpq f)] at h

/-- Of two steps the second one is reached if the first one succeeds. -/
theorem bind {f : α → Except Failure β} {q : α → Failure → Prop} (hx : NamedUnless check x p)
    (hf : ∀ a, x = .ok a → NamedUnless check (f a) (q a)) :
    NamedUnless check (x >>= f) fun e => p e ∨ ∃ a, x = .ok a ∧ q a e := by
  constructor
  · rintro e (hp | ⟨a, rfl, hq⟩)
    · rw [hx.escaped e hp]
      rfl
    · exact (hf a rfl).escaped e hq
  · intro hnot
    rcases hx.named fun e hp => hnot e (.inl hp) with ⟨a, rfl⟩ | ⟨e, rfl, he⟩
    · exact (hf a rfl).named fun e hq => hnot e (.inr ⟨a, rfl, hq⟩)
    · exact .inr ⟨e, rfl, he⟩

theorem map (h : NamedUnless check x p) (f : α → β) : NamedUnless check (x.map f) p := by
  constructor
  · intro e hp
    rw [h.escaped e hp]
    rfl
  · intro hp
    rcases h.named hp with ⟨a, rfl⟩ | ⟨e, rfl, he⟩
    · exact .inl ⟨f a, rfl⟩
    · exact .inr ⟨e, rfl, he⟩

end NamedUnless

/-! ### Reading -/

namespace FileTree

/-- What exists is a file, which is read, or a directory, which is not. -/
theorem read_cases (h : t.exists? path = true) :
    (t.isDirectory path = false ∧ ∃ bytes, t.read path = .ok bytes) ∨
      (t.isDirectory path = true ∧ t.read path = .error .isDirectory) := by
  have hpath := ne_empty_of_exists? h
  obtain ⟨⟨l, e⟩, hstat⟩ : ∃ found, t.stat path = .ok found := by
    rw [exists?, Bool.and_eq_true] at h
    cases hs : t.stat path with
    | ok found => exact ⟨found, rfl⟩
    | error f =>
      rw [hs] at h
      cases h.2
  cases e with
  | file bytes => exact .inl ⟨by rw [isDirectory, hstat], bytes, by rw [read, hstat]⟩
  | directory =>
    exact .inr ⟨isDirectory_iff.2 ⟨hpath, l, hstat⟩, by rw [read, hstat]⟩
  | link target => exact (ne_link_of_walk (stat_eq_ok.1 hstat) target rfl).elim

theorem exists?_of_isDirectory (h : t.isDirectory path = true) : t.exists? path = true := by
  obtain ⟨hpath, l, hstat⟩ := isDirectory_iff.1 h
  exact exists?_of_stat hpath hstat

/-- A directory stands where a file is to be read, which is the failure. -/
def Blocks (t : FileTree) (path : String) (f : Failure) : Prop :=
  t.isDirectory path = true ∧ f = .system .isDirectory "read"

theorem not_blocks_of_missing (h : t.exists? path = false) (f : Failure) : ¬ t.Blocks path f := by
  rintro ⟨hdir, -⟩
  rw [exists?_of_isDirectory hdir] at h
  cases h

/-- Reading what exists escapes at a directory. -/
theorem namedUnless_read (check : Bool) (h : t.exists? path = true) :
    NamedUnless check ((t.read path).mapError fun f => .system f "read") (t.Blocks path) := by
  rcases read_cases h with ⟨hdir, bytes, hread⟩ | ⟨hdir, hread⟩
  · rw [hread]
    refine (NamedUnless.ok bytes).congr fun f => iff_of_false not_false fun hblocks => ?_
    rw [hblocks.1] at hdir
    cases hdir
  · rw [hread]
    exact (NamedUnless.escape _).congr fun f => (and_iff_right hdir).symm

end FileTree

namespace Spec

/-- A text denotes an object that is no mapping, and is refused with its kind. -/
def Refuses (yaml : YamlReader) (format : Format) (text : List Char) (f : Failure) : Prop :=
  format = .yaml ∧ ∃ x : Special, yaml (Text.Utf8.dropMark text) = .ok (.special x) ∧
    x.isObject = true ∧ f = .specRefused x.kind

theorem valueOfText_eq_special {format : Format} {cs : List Char} {x : Special} :
    valueOfText yaml format cs = .ok (.special x) ↔
      format = .yaml ∧ yaml cs = .ok (.special x) := by
  cases format with
  | yaml => exact (and_iff_right rfl).symm
  | json =>
    refine iff_of_false (fun h => ?_) nofun
    exact Json.not_special_of_read (mapError_eq_ok.1 h)

theorem refuses_iff {format : Format} {text : List Char} {v : Value}
    (hv : valueOfText yaml format (Text.Utf8.dropMark text) = .ok v) (f : Failure) :
    Refuses yaml format text f ↔
      ∃ x : Special, v = .special x ∧ x.isObject = true ∧ f = .specRefused x.kind := by
  constructor
  · rintro ⟨hformat, x, hx, hobject, rfl⟩
    refine ⟨x, ?_, hobject, rfl⟩
    exact Except.ok.inj (hv.symm.trans (valueOfText_eq_special.2 ⟨hformat, hx⟩))
  · rintro ⟨x, rfl, hobject, rfl⟩
    obtain ⟨hformat, hx⟩ := valueOfText_eq_special.1 hv
    exact ⟨hformat, x, hx, hobject, rfl⟩

theorem not_refuses_of_error {format : Format} {text : List Char} {cause : String}
    (hv : valueOfText yaml format (Text.Utf8.dropMark text) = .error cause) (f : Failure) :
    ¬ Refuses yaml format text f := by
  rintro ⟨hformat, x, hx, -⟩
  rw [valueOfText_eq_special.2 ⟨hformat, hx⟩] at hv
  cases hv

/-- A text that is no document is a failure of the input, unless its value is an object and no
mapping. -/
theorem namedUnless_parse (check : Bool) (yaml : YamlReader) (text : List Char) (format : Format)
    (source : String) :
    NamedUnless check (parse yaml text format source) (Refuses yaml format text) := by
  unfold parse
  cases hv : valueOfText yaml format (Text.Utf8.dropMark text) with
  | error cause =>
    refine (NamedUnless.error (.inl rfl)).congr fun f => ?_
    exact iff_of_false not_false (not_refuses_of_error hv f)
  | ok v =>
    refine NamedUnless.congr ?_ fun f => (refuses_iff hv f).symm
    cases v with
    | mapping entries => exact (NamedUnless.ok _).congr fun f => by simp
    | special x =>
      cases hx : x.isObject with
      | true =>
        show NamedUnless check (if !x.isObject then _ else _) _
        rw [hx]
        exact (NamedUnless.escape (.specRefused x.kind)).congr fun f => by simp [hx]
      | false =>
        show NamedUnless check (if !x.isObject then _ else _) _
        rw [hx]
        exact (NamedUnless.error (.inl rfl)).congr fun f => by simp [hx]
    | _ => exact (NamedUnless.error (.inl rfl)).congr fun f => by simp

/-- What escapes the loading of a document: a directory stands in its place, or the text of the file
there denotes an object that is no mapping. -/
def LoadEscapes (yaml : YamlReader) (t : FileTree) (path : String) (f : Failure) : Prop :=
  t.Blocks path f ∨ t.exists? path = true ∧ ∃ bytes, t.read path = .ok bytes ∧
    Refuses yaml (formatOf path) (Text.Utf8.decode bytes) f

theorem namedUnless_load (check : Bool) (yaml : YamlReader) (t : FileTree) (path : String) :
    NamedUnless check (load yaml t path) (LoadEscapes yaml t path) := by
  cases he : t.exists? path with
  | false =>
    have hload : load yaml t path = .error (.specMissing path) := by
      rw [load, he]
      rfl
    rw [hload]
    refine (NamedUnless.error (.inl rfl)).congr fun f => iff_of_false not_false ?_
    rintro (hblocks | ⟨hthere, -⟩)
    · exact FileTree.not_blocks_of_missing he f hblocks
    · rw [he] at hthere
      cases hthere
  | true =>
    have hload : load yaml t path =
        ((t.read path).mapError fun f => .system f "read") >>= fun bytes =>
          parse yaml (Text.Utf8.decode bytes) (formatOf path) path := by
      rw [load, he]
      rfl
    rw [hload]
    refine ((FileTree.namedUnless_read check he).bind fun bytes _ =>
      namedUnless_parse check yaml _ _ _).congr fun f => ?_
    simp only [LoadEscapes, he, true_and, mapError_eq_ok]

end Spec

theorem namedUnless_readReport (check : Bool) (t : FileTree) (path : String) :
    NamedUnless check (readReport t path) (t.Blocks path) := by
  unfold readReport
  cases he : t.exists? path with
  | false =>
    exact (NamedUnless.ok none).congr fun f =>
      iff_of_false not_false (FileTree.not_blocks_of_missing he f)
  | true =>
    rw [if_pos rfl]
    have hmap : ((t.readText path).map some).mapError (fun f => Failure.system f "read") =
        ((t.read path).mapError fun f => Failure.system f "read").map fun bytes =>
          some (String.ofList (Text.Utf8.decode bytes)) := by
      unfold FileTree.readText
      cases t.read path <;> rfl
    rw [hmap]
    exact (FileTree.namedUnless_read check he).map _

/-! ### Surveys -/

/-- A survey below normal scan roots fails only if none of them is there. -/
theorem Route.Survey.namedUnless_ofTree (check : Bool)
    (hn : ∀ root ∈ s.scanRoots, Path.IsNormal root) :
    NamedUnless check (ofTree t s) fun _ => False := by
  by_cases hroot : ∃ root ∈ s.scanRoots, t.isDirectory root = true
  · obtain ⟨v, hv⟩ := exists_ofTree hroot hn
    rw [hv]
    exact .ok v
  · have hempty : (existingRoots t s).isEmpty = true := by
      rw [← existingRoots_isEmpty, Bool.not_eq_false] at hroot
      exact hroot
    rw [ofTree, scanFiles, hempty]
    exact .error (.inl rfl)

/-! ### Tasks -/

namespace Task

/-- What a task results in, whatever tree it leaves. -/
def outcome (task : Task α) (t : FileTree) : Except Failure α :=
  match task t with
  | .ok a _ => .ok a
  | .error f _ => .error f

theorem runOn_outcome (task : Task α) (t : FileTree) (warnings : List Log.Entry)
    (message : α → String) : (task.runOn t warnings message).result = task.outcome t := by
  unfold runOn outcome
  cases task t <;> rfl

theorem outcome_look (read : FileTree → Except Failure α) (t : FileTree) :
    (look read).outcome t = read t := by
  unfold outcome look
  cases read t <;> rfl

theorem outcome_look_bind (read : FileTree → Except Failure α) (next : α → Task β) (t : FileTree) :
    (look read >>= next).outcome t = read t >>= fun a => (next a).outcome t := by
  rw [outcome, look_bind]
  cases read t <;> rfl

theorem outcome_bind_pure (task : Task α) (f : α → β) (t : FileTree) :
    (task >>= fun a => pure (f a)).outcome t = (task.outcome t).map f := by
  show outcome (EStateM.bind task fun a => EStateM.pure (f a)) t = _
  unfold outcome EStateM.bind
  cases task t <;> rfl

theorem outcome_change (c : FileTree.Change) (failure : FileTree.Fault → Failure) (t : FileTree) :
    (change c failure).outcome t = .ok () ∨
      ∃ f, (change c failure).outcome t = .error (failure f) := by
  unfold outcome change EStateM.adaptExcept
  cases c t with
  | ok u t' => exact .inl rfl
  | error f t' => exact .inr ⟨f, rfl⟩

end Task

/-- A check escapes if it finds a directory in the place of its report. -/
theorem namedUnless_finish (path content : String) (check : Bool) (t : FileTree) :
    NamedUnless check ((finish path content check).outcome t)
      fun f => check = true ∧ t.Blocks path f := by
  cases check with
  | true =>
    rw [finish_check, Task.outcome_bind_pure, Task.outcome_look]
    exact ((namedUnless_readReport true t path).map _).congr fun f => (and_iff_right rfl).symm
  | false =>
    have hfinish : (finish path content false).outcome t =
        ((writeReport path content).outcome t).map fun _ => Status.written :=
      Task.outcome_bind_pure _ _ t
    rw [hfinish]
    refine NamedUnless.congr (p := fun _ => False) ?_ fun f => iff_of_false not_false nofun
    refine NamedUnless.map ?_ _
    rcases Task.outcome_change _ _ t with hok | ⟨f, herror⟩
    · rw [writeReport, hok]
      exact .ok ()
    · rw [writeReport, herror]
      exact .error (.inr ⟨rfl, rfl⟩)

theorem namedUnless_specTask (yaml : YamlReader) (s : Settings) (instant : Option Int)
    (check : Bool) (t : FileTree) :
    NamedUnless check ((specTask yaml s instant check).outcome t) fun f =>
      Spec.LoadEscapes yaml t s.specPath f ∨
        (∃ document, Spec.load yaml t s.specPath = .ok document) ∧
          check = true ∧ t.Blocks s.outputPath f := by
  unfold specTask
  rw [Task.outcome_look_bind]
  simp only [← exists_and_right]
  refine (Spec.namedUnless_load check yaml t s.specPath).bind fun document _ => ?_
  rw [Task.outcome_bind_pure]
  exact (namedUnless_finish _ _ check t).map _

theorem namedUnless_codeTask (hn : ∀ root ∈ s.scanRoots, Path.IsNormal root) (instant : Option Int)
    (check : Bool) (t : FileTree) :
    NamedUnless check ((codeTask s instant check).outcome t) fun f =>
      (∃ root ∈ s.scanRoots, t.isDirectory root = true) ∧
        check = true ∧ t.Blocks s.codeOutputPath f := by
  have hsurvey : (∃ v, Route.Survey.ofTree t s = .ok v) ↔
      ∃ root ∈ s.scanRoots, t.isDirectory root = true :=
    ⟨fun ⟨_, hv⟩ => Route.Survey.exists_root_of_ofTree hv,
      fun hroot => Route.Survey.exists_ofTree hroot hn⟩
  unfold codeTask
  rw [Task.outcome_look_bind]
  have hreached : ∀ f, (False ∨ ∃ v, Route.Survey.ofTree t s = .ok v ∧
        check = true ∧ t.Blocks s.codeOutputPath f) ↔
      (∃ root ∈ s.scanRoots, t.isDirectory root = true) ∧
        check = true ∧ t.Blocks s.codeOutputPath f := fun f => by
    rw [false_or, exists_and_right, hsurvey]
  refine ((Route.Survey.namedUnless_ofTree check hn).bind fun survey _ => ?_).congr hreached
  rw [Task.outcome_look_bind, Route.Coverage.ofTree_eq]
  show NamedUnless check (Task.outcome _ t) _
  rw [Task.outcome_bind_pure]
  exact (namedUnless_finish _ _ check t).map _

/-! ### Runs -/

/-- **What escapes a run.** A run on a description document escapes if there is a directory in the
place of the document, or a file whose text denotes an object that is no mapping, or, once the
document is loaded, a directory in the place of the report to be checked. A run on declared routes
escapes only in the last way, once there is a scan root. Whatever else stands at the paths of the
settings, and whatever YAML texts are read as, the run succeeds or its failure has a name. -/
theorem generate_namedUnless (yaml : YamlReader) (t : FileTree) (s : Settings)
    (hn : ∀ root ∈ s.scanRoots, Path.IsNormal root) (instant : Option Int) (check : Bool) :
    (NamedUnless check (generateSpec yaml t s instant check).result fun f =>
      Spec.LoadEscapes yaml t s.specPath f ∨
        (∃ document, Spec.load yaml t s.specPath = .ok document) ∧
          check = true ∧ t.Blocks s.outputPath f) ∧
    NamedUnless check (generateCode t s instant check).result fun f =>
      (∃ root ∈ s.scanRoots, t.isDirectory root = true) ∧
        check = true ∧ t.Blocks s.codeOutputPath f := by
  rw [generateSpec, Task.runOn_outcome, generateCode, Task.runOn_outcome]
  exact ⟨namedUnless_specTask yaml s instant check t, namedUnless_codeTask hn instant check t⟩

/-- The sample with a description document that is an instant. -/
def instantTree : FileTree :=
  sampleTree.put ["p", "api.yaml"] (.file (Text.Utf8.encode "!!timestamp 2001-12-14".toList))
    (by decide)

/-- Settings that name the instant as the description document, and a directory as the place of the
report on routes. -/
def occupiedSettings : Settings :=
  { sampleSettings with specPath := "/p/api.yaml", codeOutputPath := "/p/src" }

theorem refuses_instant :
    Spec.Refuses Yaml.reader .yaml "!!timestamp 2001-12-14".toList (.specRefused "date") := by
  have hkind : (Yaml.reader "!!timestamp 2001-12-14".toList).map Value.kind =
      .ok Special.instant.kind := by decide +kernel
  obtain ⟨v, hv, hkind⟩ := map_eq_ok.1 hkind
  obtain rfl := Value.eq_special_of_kind hkind
  exact ⟨rfl, .instant, hv, rfl, rfl⟩

/-- The instant is refused, and the directory escapes a check and makes writing fail by name. -/
theorem generate_namedUnless_sample :
    (∀ root ∈ occupiedSettings.scanRoots, Path.IsNormal root) ∧
      (generateSpec Yaml.reader instantTree occupiedSettings none false).result =
        .error (.specRefused "date") ∧
      (generateCode instantTree occupiedSettings none true).result =
        .error (.system .isDirectory "read") ∧
      ((∃ r, (generateCode instantTree occupiedSettings none false).result = .ok r) ∨
        ∃ f, (generateCode instantTree occupiedSettings none false).result = .error f ∧
          f.IsNamed false) := by
  have hn : ∀ root ∈ occupiedSettings.scanRoots, Path.IsNormal root :=
    sampleSettings_isNormal.scanRoots
  obtain ⟨hspec, hwrite⟩ :=
    generate_namedUnless Yaml.reader instantTree occupiedSettings hn none false
  have hcheck := (generate_namedUnless Yaml.reader instantTree occupiedSettings hn none true).2
  have hrefused :
      Spec.LoadEscapes Yaml.reader instantTree "/p/api.yaml" (.specRefused "date") := by
    refine .inr ⟨by decide +kernel, Text.Utf8.encode "!!timestamp 2001-12-14".toList,
      by decide +kernel, ?_⟩
    have hformat : Spec.formatOf "/p/api.yaml" = .yaml := by decide +kernel
    rw [hformat, Text.Utf8.decode_encode]
    exact refuses_instant
  have hroot : ∃ root ∈ occupiedSettings.scanRoots, instantTree.isDirectory root = true :=
    ⟨"/p", by decide, by decide +kernel⟩
  refine ⟨hn, hspec.escaped _ (.inl hrefused), ?_, hwrite.named fun f h => by cases h.2.1⟩
  exact hcheck.escaped _ ⟨hroot, rfl, by decide +kernel, rfl⟩

/-- **Not every failure has a name.** A directory in the place of the description document is read
as a file. -/
theorem not_always_named :
    ¬ ∀ (yaml : YamlReader) (t : FileTree) (s : Settings), s.IsNormal →
      ∀ (instant : Option Int) (check : Bool),
      (∀ f, (generateSpec yaml t s instant check).result = .error f →
        f.kind? = some .input ∨ f.kind? = some .output) ∧
      ∀ f, (generateCode t s instant check).result = .error f →
        f.kind? = some .input ∨ f.kind? = some .output := by
  intro h
  have hs : { sampleSettings with specPath := "/p" }.IsNormal :=
    { sampleSettings_isNormal with specPath := by decide +kernel }
  have hdir : sampleTree.isDirectory "/p" = true := by decide +kernel
  have hfails : (generateSpec Yaml.reader sampleTree { sampleSettings with specPath := "/p" } none
      false).result = .error (.system .isDirectory "read") := by
    rw [generateSpec, Task.runOn_outcome]
    exact (namedUnless_specTask _ _ none false sampleTree).escaped _ (.inl (.inl ⟨hdir, rfl⟩))
  rcases (h Yaml.reader sampleTree _ hs none false).1 _ hfails with hkind | hkind
  · cases hkind
  · cases hkind

end ApiReport
