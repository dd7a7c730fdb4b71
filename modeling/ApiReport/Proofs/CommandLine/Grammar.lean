import ApiReport.Proofs.CommandLine
import ApiReport.Script

/-!
# The grammar of arguments

Arguments are accepted if they are items put one behind the other. An item is a flag, a flag with
the value behind it, or an argument that does not start with a hyphen. The first argument of an item
tells which one it is, so that arguments can be cut into items in one way only, and where no item
can be cut off, nothing but the start of what is left is to blame.

Key definitions: `CommandLine.Flag`, `CommandLine.Item`, `CommandLine.Reads`,
`CommandLine.Offends`.
Key theorems: `CommandLine.parseFrom_words`, `CommandLine.words_append_inj`,
`CommandLine.exists_reads_append`, `CommandLine.parse_iff_reads`.
-/
namespace ApiReport.CommandLine

/-! ### Items -/

/-- The flags that take a value. -/
inductive Flag where
  | root
  | spec
  | out
  | scan
  | controllers
  | timeZone
  deriving DecidableEq, Repr

namespace Flag

/-- How a flag is written. -/
def text : Flag → String
  | root => "--root"
  | spec => "--spec"
  | out => "--out"
  | scan => "--scan"
  | controllers => "--controllers"
  | timeZone => "--time-zone"

/-- The setting that a flag gives to a script. -/
def key (script : Script) : Flag → Settings.Key
  | root => .rootDir
  | spec => .specPath
  | out => script.outputKey
  | scan => .scanRoots
  | controllers => .controllerDirs
  | timeZone => .timeZone

/-- What a flag makes of the argument behind it: a list of trimmed texts that were separated by
commas, without the blank ones, or the argument itself. -/
def value : Flag → String → Value
  | scan, argument | controllers, argument =>
    .list ((((Text.pieces ',' argument.toList).map Text.trim).filter (· ≠ [])).map
      fun entry => .text (String.ofList entry))
  | _, argument => .text argument

end Flag

/-- What a command line is made of. -/
inductive Item where
  | check
  | help (short : Bool)
  | setting (flag : Flag) (argument : String)
  | plain (argument : String)
  deriving DecidableEq, Repr

namespace Item

/-- The arguments that make up an item. -/
def words : Item → List String
  | check => ["--check"]
  | help short => [if short then "-h" else "--help"]
  | setting flag argument => [flag.text, argument]
  | plain argument => [argument]

/-- A value is not empty and does not start with two hyphens, an argument of its own not with one.
-/
def IsValid : Item → Prop
  | check | help _ => True
  | setting _ argument => argument ≠ "" ∧ ¬ "--".toList <+: argument.toList
  | plain argument => ¬ "-".toList <+: argument.toList

instance : (i : Item) → Decidable i.IsValid
  | check | help _ => inferInstanceAs (Decidable True)
  | setting _ argument =>
    inferInstanceAs (Decidable (argument ≠ "" ∧ ¬ "--".toList <+: argument.toList))
  | plain argument => inferInstanceAs (Decidable (¬ "-".toList <+: argument.toList))

/-- What an item changes about what was asked for before. -/
def apply (script : Script) (o : Options) : Item → Options
  | check => { o with check := true }
  | help _ => { o with help := true }
  | setting flag argument =>
    { o with given := o.given.set (flag.key script) (flag.value argument) }
  | plain _ => o

/-- What an item makes of a flag. -/
def valueOf? (flag : Flag) : Item → Option Value
  | setting f argument => if f = flag then some (flag.value argument) else none
  | _ => none

end Item

/-- Arguments are some items, one behind the other. -/
structure Reads (items : List Item) (arguments : List String) : Prop where
  words : arguments = items.flatMap Item.words
  valid : ∀ i ∈ items, i.IsValid

/-- No item can be cut off from arguments: their first one is a flag without its value, or an
unknown option. -/
inductive Offends : List String → Fault → Prop
  | noValue {flag : Flag} {rest : List String}
      (h : ∀ argument ∈ rest.head?, argument = "" ∨ "--".toList <+: argument.toList) :
      Offends (flag.text :: rest) (.noValue flag.text)
  | unknown {argument : String} {rest : List String} (hyphen : "-".toList <+: argument.toList)
      (check : argument ≠ "--check") (help : argument ≠ "--help" ∧ argument ≠ "-h")
      (flag : ∀ flag : Flag, argument ≠ flag.text) :
      Offends (argument :: rest) (.unknown argument)

variable {script : Script} {output : Settings.Key} {argument : String} {flag : Flag} {i j : Item}
  {items : List Item} {rest rest' arguments : List String} {o : Options} {f : Fault}

/-! ### Flags -/

theorem isValue_iff : isValue argument = true ↔ argument ≠ "" ∧ ¬ "--".toList <+: argument.toList := by
  rw [isValue, Bool.and_eq_true, decide_eq_true_eq, Bool.not_eq_true', ← Bool.not_eq_true,
    List.isPrefixOf_iff_prefix]
  rfl

theorem hyphen_text (flag : Flag) : "-".toList <+: flag.text.toList := by
  cases flag <;> decide

theorem key_injective {flag flag' : Flag} (h : flag.key script = flag'.key script) :
    flag = flag' := by
  revert h
  cases script <;> cases flag <;> cases flag' <;> decide

/-- The flags with a value are those that give a setting. -/
theorem valueKey?_text (script : Script) (flag : Flag) :
    valueKey? script.outputKey flag.text = some (flag.key script) := by
  cases flag <;> rfl

theorem text_injective {flag flag' : Flag} (h : flag.text = flag'.text) : flag = flag' := by
  have hkey : some (flag.key .spec) = some (flag'.key .spec) := by
    rw [← valueKey?_text, h, valueKey?_text]
  exact key_injective (Option.some.inj hkey)

theorem exists_flag_of_valueKey? {key : Settings.Key} (h : valueKey? output argument = some key) :
    ∃ flag : Flag, flag.text = argument := by
  unfold valueKey? at h
  split at h
  · exact ⟨.root, rfl⟩
  · exact ⟨.spec, rfl⟩
  · exact ⟨.out, rfl⟩
  · exact ⟨.scan, rfl⟩
  · exact ⟨.controllers, rfl⟩
  · exact ⟨.timeZone, rfl⟩
  · cases h

theorem value_key (script : Script) (flag : Flag) (argument : String) :
    CommandLine.value (flag.key script) argument = flag.value argument := by
  have hlist : ∀ key : Settings.Key, key.isList = true →
      CommandLine.value key argument = Flag.scan.value argument := by
    intro key hkey
    rw [CommandLine.value, if_pos hkey, Settings.Key.textList, List.map_map, Text.commaList,
      Flag.value]
    congr 2
    refine List.filter_congr fun entry _ => ?_
    cases entry <;> rfl
  cases flag with
  | scan | controllers => exact hlist _ rfl
  | out => cases script <;> rfl
  | root | spec | timeZone => rfl

/-! ### One step -/

theorem ne_of_valueKey? {key : Settings.Key} (h : valueKey? output argument = some key) :
    argument ≠ "--check" ∧ argument ≠ "--help" ∧ argument ≠ "-h" := by
  refine ⟨?_, ?_, ?_⟩ <;>
  · rintro rfl
    cases h

theorem ne_of_not_hyphen (h : ¬ "-".toList <+: argument.toList) :
    argument ≠ "--check" ∧ argument ≠ "--help" ∧ argument ≠ "-h" ∧ ∀ flag : Flag,
      argument ≠ flag.text := by
  refine ⟨?_, ?_, ?_, fun flag => ?_⟩
  · rintro rfl
    exact h (by decide)
  · rintro rfl
    exact h (by decide)
  · rintro rfl
    exact h (by decide)
  · rintro rfl
    exact h (hyphen_text flag)

theorem valueKey?_eq_none (h : ∀ flag : Flag, argument ≠ flag.text) :
    valueKey? output argument = none := by
  by_contra hsome
  obtain ⟨key, hkey⟩ := Option.ne_none_iff_exists'.1 hsome
  obtain ⟨flag, rfl⟩ := exists_flag_of_valueKey? hkey
  exact h flag rfl

theorem parseFrom_text (script : Script) (o : Options) (flag : Flag) (rest : List String) :
    parseFrom script.outputKey o (flag.text :: rest) =
      match rest with
      | next :: rest =>
        if isValue next then
          parseFrom script.outputKey ((Item.setting flag next).apply script o) rest
        else .error (.noValue flag.text)
      | [] => .error (.noValue flag.text) := by
  have hkey := valueKey?_text script flag
  obtain ⟨hcheck, hhelp, hshort⟩ := ne_of_valueKey? hkey
  rw [parseFrom]
  · rw [hkey]
    cases rest with
    | nil => rfl
    | cons next rest =>
      dsimp only
      rw [value_key, Item.apply]
  · exact hcheck
  · exact hhelp
  · exact hshort

theorem parseFrom_of_ne (hcheck : argument ≠ "--check")
    (hhelp : argument ≠ "--help" ∧ argument ≠ "-h") (hflag : ∀ flag : Flag, argument ≠ flag.text) :
    parseFrom output o (argument :: rest) =
      if ['-'].isPrefixOf argument.toList then .error (.unknown argument)
      else parseFrom output o rest := by
  rw [parseFrom]
  · rw [valueKey?_eq_none hflag]
  · exact hcheck
  · exact hhelp.1
  · exact hhelp.2

/-- An item is read as what it asks for. -/
theorem parseFrom_words (hi : i.IsValid) :
    parseFrom script.outputKey o (i.words ++ rest) =
      parseFrom script.outputKey (i.apply script o) rest := by
  cases i with
  | check => rfl
  | help short => cases short <;> rfl
  | setting flag argument =>
    rw [Item.words, List.cons_append, List.singleton_append, parseFrom_text]
    exact if_pos (isValue_iff.2 hi)
  | plain argument =>
    obtain ⟨hcheck, hhelp, hshort, hflag⟩ := ne_of_not_hyphen hi
    rw [Item.words, List.singleton_append, parseFrom_of_ne hcheck ⟨hhelp, hshort⟩ hflag]
    exact if_neg fun hprefix => hi (List.isPrefixOf_iff_prefix.1 hprefix)

/-- Where no item can be cut off, arguments are refused. -/
theorem parseFrom_of_offends (h : Offends arguments f) :
    parseFrom script.outputKey o arguments = .error f := by
  cases h with
  | @noValue flag rest hrest =>
    rw [parseFrom_text]
    cases rest with
    | nil => rfl
    | cons next rest =>
      refine if_neg fun hvalue => ?_
      obtain ⟨hne, hprefix⟩ := isValue_iff.1 hvalue
      exact (hrest next rfl).elim hne hprefix
  | unknown hyphen check help flag =>
    rw [parseFrom_of_ne check help flag]
    exact if_pos (List.isPrefixOf_iff_prefix.2 hyphen)

/-- Either an item can be cut off from arguments, or not. -/
theorem exists_words_append (argument : String) (rest : List String) :
    (∃ i rest', i.IsValid ∧ argument :: rest = Item.words i ++ rest') ∨
      ∃ f, Offends (argument :: rest) f := by
  by_cases hcheck : argument = "--check"
  · exact .inl ⟨.check, rest, trivial, by rw [hcheck]; rfl⟩
  by_cases hlong : argument = "--help"
  · exact .inl ⟨.help false, rest, trivial, by rw [hlong]; rfl⟩
  by_cases hshort : argument = "-h"
  · exact .inl ⟨.help true, rest, trivial, by rw [hshort]; rfl⟩
  by_cases hflag : ∃ flag : Flag, argument = flag.text
  · obtain ⟨flag, rfl⟩ := hflag
    by_cases hvalue : ∃ next ∈ rest.head?, next ≠ "" ∧ ¬ "--".toList <+: next.toList
    · obtain ⟨next, hnext, hvalid⟩ := hvalue
      obtain ⟨rest, rfl⟩ := List.head?_eq_some_iff.1 hnext
      exact .inl ⟨.setting flag next, rest, hvalid, rfl⟩
    · refine .inr ⟨.noValue flag.text, .noValue fun next hnext => ?_⟩
      by_contra hvalid
      exact hvalue ⟨next, hnext, not_or.1 hvalid⟩
  · by_cases hyphen : "-".toList <+: argument.toList
    · exact .inr ⟨.unknown argument,
        .unknown hyphen hcheck ⟨hlong, hshort⟩ fun flag heq => hflag ⟨flag, heq⟩⟩
    · exact .inl ⟨.plain argument, rest, hyphen, rfl⟩

/-- The first argument of an item tells which item it is. -/
theorem words_append_inj (hi : i.IsValid) (hj : j.IsValid)
    (h : i.words ++ rest = j.words ++ rest') : i = j ∧ rest = rest' := by
  have htext := fun flag : Flag => ne_of_valueKey? (valueKey?_text .spec flag)
  have hinj := fun flag flag' : Flag => @text_injective flag flag'
  cases i with
  | check | help | setting =>
    cases j with
    | check | help | setting => grind [Item.words]
    | plain => grind [Item.words, ne_of_not_hyphen hj]
  | plain =>
    have hne := ne_of_not_hyphen hi
    cases j with
    | check | help | setting | plain => grind [Item.words]

/-! ### All arguments -/

/-- By induction on the items, each of which is read by one step. -/
theorem parseFrom_flatMap (hitems : ∀ i ∈ items, i.IsValid) :
    parseFrom script.outputKey o (items.flatMap Item.words ++ rest) =
      parseFrom script.outputKey (items.foldl (Item.apply script) o) rest := by
  induction items generalizing o with
  | nil => rfl
  | cons i items ih =>
    obtain ⟨hi, hitems⟩ := List.forall_mem_cons.1 hitems
    rw [List.flatMap_cons, List.append_assoc, parseFrom_words hi, ih hitems, List.foldl_cons]

/-- Items are cut off from arguments until nothing is left or what is left offends. -/
theorem exists_reads_append : ∀ arguments : List String, ∃ items read rest,
    arguments = read ++ rest ∧ Reads items read ∧ (rest = [] ∨ ∃ f, Offends rest f)
  | [] => ⟨[], [], [], rfl, ⟨rfl, by simp⟩, .inl rfl⟩
  | argument :: rest => by
    rcases exists_words_append argument rest with ⟨i, rest', hi, hwords⟩ | hf
    · have hlength : rest'.length < (argument :: rest).length := by
        rw [hwords, List.length_append]
        have : 0 < i.words.length := by cases i <;> simp [Item.words]
        omega
      obtain ⟨items, read, left, rfl, hread, hleft⟩ := exists_reads_append rest'
      refine ⟨i :: items, i.words ++ read, left, ?_, ⟨?_, ?_⟩, hleft⟩
      · rw [hwords, List.append_assoc]
      · rw [List.flatMap_cons, hread.words]
      · exact List.forall_mem_cons.2 ⟨hi, hread.valid⟩
    · exact ⟨[], [], argument :: rest, rfl, ⟨rfl, by simp⟩, .inr hf⟩
termination_by arguments => arguments.length
decreasing_by exact hlength

theorem Reads.unique : ∀ {items items' : List Item} {arguments : List String},
    Reads items arguments → Reads items' arguments → items = items'
  | [], [], _, _, _ => rfl
  | [], j :: items', _, h, h' => by
    have hwords := h.words.symm.trans h'.words
    cases j <;> cases hwords
  | i :: items, [], _, h, h' => by
    have hwords := h.words.symm.trans h'.words
    cases i <;> cases hwords
  | i :: items, j :: items', _, h, h' => by
    obtain ⟨hi, hitems⟩ := List.forall_mem_cons.1 h.valid
    obtain ⟨hj, hitems'⟩ := List.forall_mem_cons.1 h'.valid
    have hwords := h.words.symm.trans h'.words
    rw [List.flatMap_cons, List.flatMap_cons] at hwords
    obtain ⟨rfl, hrest⟩ := words_append_inj hi hj hwords
    rw [Reads.unique ⟨rfl, hitems⟩ ⟨hrest, hitems'⟩]

/-! ### What items ask for -/

/-- What is asked for by items: the last value of each flag, and nothing that no item mentions. -/
structure AsksFor (script : Script) (items : List Item) (o : Options) : Prop where
  check : o.check = true ↔ .check ∈ items
  help : o.help = true ↔ ∃ short, .help short ∈ items
  given : ∀ flag : Flag, o.given.get? (flag.key script) =
    (items.filterMap (Item.valueOf? flag)).getLast?
  others : ∀ key, (∀ flag : Flag, key ≠ flag.key script) → o.given.get? key = none

/-- What one more item at the end asks for. -/
theorem AsksFor.concat (h : AsksFor script items o) (i : Item) :
    AsksFor script (items ++ [i]) (i.apply script o) := by
  cases i with
  | check =>
    exact ⟨by simp [Item.apply], by simp [Item.apply, h.help],
      fun flag => by simp [Item.apply, Item.valueOf?, h.given], h.others⟩
  | help short =>
    exact ⟨by simp [Item.apply, h.check], by simp [Item.apply],
      fun flag => by simp [Item.apply, Item.valueOf?, h.given], h.others⟩
  | plain argument =>
    exact ⟨by simp [Item.apply, h.check], by simp [Item.apply, h.help],
      fun flag => by simp [Item.apply, Item.valueOf?, h.given], h.others⟩
  | setting given argument =>
    refine ⟨by simp [Item.apply, h.check], by simp [Item.apply, h.help], fun flag => ?_,
      fun key hkey => ?_⟩
    · rw [Item.apply, Settings.Given.get?_set, List.filterMap_append, List.getLast?_append]
      by_cases hflag : given = flag
      · subst hflag
        simp [Item.valueOf?]
      · have hkey : flag.key script ≠ given.key script := fun heq =>
          hflag (key_injective heq).symm
        rw [if_neg hkey, h.given]
        simp [Item.valueOf?, hflag]
    · rw [Item.apply, Settings.Given.get?_set, if_neg (hkey given), h.others key hkey]

theorem asksFor_foldl (script : Script) (items : List Item) :
    AsksFor script items (items.foldl (Item.apply script) {}) := by
  induction items using List.reverseRecOn with
  | nil => exact ⟨by simp, by simp, fun _ => rfl, fun _ _ => rfl⟩
  | append_singleton items i ih =>
    rw [List.foldl_append]
    exact ih.concat i

/-! ### The grammar -/

theorem parse_of_reads (h : Reads items arguments) :
    parse script.outputKey arguments = .ok (items.foldl (Item.apply script) {}) := by
  have hread : parseFrom script.outputKey {} (items.flatMap Item.words ++ []) =
      parseFrom script.outputKey (items.foldl (Item.apply script) {}) [] :=
    parseFrom_flatMap h.valid
  rw [List.append_nil, ← h.words, parseFrom] at hread
  exact hread

theorem parse_of_offends (hread : Reads items arguments) (hrest : Offends rest f) :
    parse script.outputKey (arguments ++ rest) = .error f := by
  rw [parse, hread.words, parseFrom_flatMap hread.valid, parseFrom_of_offends hrest]

/-- **The grammar of arguments.** Arguments can be cut into items in at most one way. They are
accepted if and only if they can, and ask for what the items do, one after the other. Else they are
refused for what follows the items at their start. -/
theorem parse_iff_reads (script : Script) (arguments : List String) :
    (∀ items items', Reads items arguments → Reads items' arguments → items = items') ∧
      (∀ o, parse script.outputKey arguments = .ok o ↔
        ∃ items, Reads items arguments ∧ o = items.foldl (Item.apply script) {} ∧
          AsksFor script items o) ∧
      ∀ f, parse script.outputKey arguments = .error f ↔
        ∃ items read rest, arguments = read ++ rest ∧ Reads items read ∧ Offends rest f := by
  obtain ⟨items, read, rest, rfl, hread, hrest⟩ := exists_reads_append arguments
  refine ⟨fun _ _ => Reads.unique, fun o => ⟨fun h => ?_, ?_⟩, fun f => ⟨fun h => ?_, ?_⟩⟩
  · rcases hrest with rfl | ⟨f, hf⟩
    · rw [List.append_nil] at h ⊢
      rw [parse_of_reads hread] at h
      cases h
      exact ⟨items, hread, rfl, asksFor_foldl script items⟩
    · rw [parse_of_offends hread hf] at h
      cases h
  · rintro ⟨items, hitems, rfl, -⟩
    exact parse_of_reads hitems
  · rcases hrest with rfl | ⟨f', hf⟩
    · rw [List.append_nil, parse_of_reads hread] at h
      cases h
    · rw [parse_of_offends hread hf] at h
      cases h
      exact ⟨items, read, rest, rfl, hread, hf⟩
  · rintro ⟨items, read, rest, heq, hitems, hf⟩
    rw [heq]
    exact parse_of_offends hitems hf

/-! ### A sample -/

/-- A value that looks like a flag, and a flag that is given twice. -/
def sampleItems : List Item :=
  [.setting .scan "-h", .plain "", .check, .setting .scan " a,,b "]

/-- The arguments that make up the sample. -/
def sampleArguments : List String := ["--scan", "-h", "", "--check", "--scan", " a,,b "]

/-- Help is not asked for by a value, and the second list takes the place of the first. -/
theorem parse_iff_reads_sample :
    Reads sampleItems sampleArguments ∧
      (∀ items, Reads items sampleArguments → items = sampleItems) ∧
      ∃ o, parse Script.code.outputKey sampleArguments = .ok o ∧ o.check = true ∧
        o.help = false ∧ o.given.get? .scanRoots = some (.list [.text "a", .text "b"]) := by
  have hreads : Reads sampleItems sampleArguments := ⟨rfl, by decide⟩
  obtain ⟨hunique, hok, -⟩ := parse_iff_reads .code sampleArguments
  refine ⟨hreads, fun items h => hunique _ _ h hreads, ?_⟩
  exact ⟨_, (hok _).2 ⟨sampleItems, hreads, rfl, asksFor_foldl .code sampleItems⟩, rfl, rfl,
    rfl⟩

end ApiReport.CommandLine
