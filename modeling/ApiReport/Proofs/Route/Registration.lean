import ApiReport.Proofs.Route.Canonical.Layout
import ApiReport.Proofs.Verb
import ApiReport.Route.Registration

/-!
# Canonical routes files are read back

A canonical routes file is a sequence of calls of the router, each with a quoted path and a list in
square brackets. No call can be read inside of another one: the name of the router stands in none of
their texts, and no text can be taken for the end of its quotes or brackets. So the search for a
group finds the first group call of the file, wherever it stands, and the search for routes goes
from call to call.

Key definitions: `Statement`, `Statement.text`, `routesFile`, `Statement.IsCanonical`,
`fileGroup`, `Statement.route?`, `called`.
Key theorems: `callArguments?_behindName`, `routerCall?_eq_some_iff`, `read?_called`,
`Statement.firstAt?_append`, `Statement.allAt_append`, `registered_routesFile`.
-/
namespace ApiReport.Route

open Text (not_mem_append not_mem_intercalate)

/-! ### The layout -/

/-- A statement of a routes file: a group with the names of its middleware, or a route with the
spelling of its verb and its handler reference. -/
inductive Statement where
  | group (path : String) (middleware : List String)
  | route (spelling path handler : String)
  deriving DecidableEq, Repr

/-- A call of the router: the name of the call, a quoted path, and a list in square brackets. -/
def routerCallText (name path items : String) : String :=
  "Router::" ++ name ++ "(" ++ quote path ++ ", [" ++ items ++ "]);"

def Statement.text : Statement → String
  | .group path middleware => routerCallText "group" path (", ".intercalate (middleware.map quote))
  | .route spelling path handler => routerCallText spelling path handler

/-- The text of a routes file, with a line break between statements. -/
def routesFile (lineBreak : String) (statements : List Statement) : String :=
  lineBreak.intercalate (statements.map Statement.text)

/-- The line breaks in use. -/
def lineBreaks : List String := ["\n", "\r\n", "\r", "\u2028", "\u2029"]

/-- The start of every call of the router, in small letters. -/
def router : List Char := "router::".toList

/-- A text that holds none of the given characters, and no start of a call in letters of whatever
case. -/
structure Lacks (characters : List Char) (s : String) : Prop where
  characters : ∀ c ∈ characters, c ∉ s.toList
  noCall : ¬ router <:+: s.toList.map Char.toLower

/-- A statement that can be laid out. -/
def Statement.IsCanonical : Statement → Prop
  | .group path middleware =>
    path ≠ "" ∧ Lacks ['\'', '[', ']'] path ∧ ∀ m ∈ middleware, Lacks ['\'', ',', '[', ']'] m
  | .route spelling path handler =>
    (∃ v : Verb, Text.IsCaseVariant spelling v.key) ∧ path ≠ "" ∧ Lacks ['\'', '[', ']'] path ∧
      handler ≠ "" ∧ Lacks ['[', ']'] handler

instance (characters : List Char) (s : String) : Decidable (Lacks characters s) :=
  have : Decidable (∀ c ∈ characters, c ∉ s.toList) := List.decidableBAll _ _
  decidable_of_iff ((∀ c ∈ characters, c ∉ s.toList) ∧ ¬ router <:+: s.toList.map Char.toLower)
    ⟨fun ⟨hcharacters, hcall⟩ => ⟨hcharacters, hcall⟩, fun h => ⟨h.characters, h.noCall⟩⟩

instance (spelling : String) : Decidable (∃ v : Verb, Text.IsCaseVariant spelling v.key) :=
  decidable_of_iff ((Verb.ofAnyCase? spelling).isSome = true) <| by
    simp only [Option.isSome_iff_exists, Verb.ofAnyCase?_eq_some_iff]

instance : (s : Statement) → Decidable s.IsCanonical
  | .group _ _ => inferInstanceAs (Decidable (_ ∧ _ ∧ _))
  | .route _ _ _ => inferInstanceAs (Decidable (_ ∧ _ ∧ _ ∧ _ ∧ _))

/-- What a group statement gives to the routes of its file. -/
def Statement.group? : Statement → Option Group
  | .group path middleware => some { path, middleware }
  | .route _ _ _ => none

/-- The group of a file: what its first group statement gives, or nothing. -/
def fileGroup (statements : List Statement) : Group :=
  (statements.findSome? Statement.group?).getD { path := "", middleware := [] }

/-- The route that a statement registers in a file with a given group. -/
def Statement.route? (source : String) (group : Group) : Statement → Option Route
  | .group _ _ => none
  | .route spelling path handler =>
    some {
      method := String.ofList (Text.uppercase spelling.toList)
      path := group.path ++ path
      description := "Router route"
      controller := Text.trimmed handler
      handler := ""
      source
      middleware := group.middleware
      origin := .registered }

/-! ### Reading one call -/

/-- The name of a call as it is looked for, in small letters. -/
def IsCallName (word : String) : Prop := ∀ w ∈ word.toList, Text.IsSmallLetter w

instance (word : String) : Decidable (IsCallName word) := List.decidableBAll _ _

theorem isCallName_group : IsCallName "group" := by decide

theorem isNoCapital_of_mem_router : ∀ w ∈ router, Text.IsNoCapital w := by
  have h : router.all (fun w => decide (Text.IsNoCapital w)) = true := by decide
  exact fun w hw => of_decide_eq_true (List.all_eq_true.1 h w hw)

theorem isCallName_key (v : Verb) : IsCallName v.key :=
  fun w hw => (Verb.isVerbLetter_of_mem_key v w hw).1

theorem IsCallName.not_mem {word : String} (h : IsCallName word) : '(' ∉ word.toList :=
  fun hmem => absurd (h _ hmem) (by decide)

section Call

variable {name word path items handler : String} {cs rest : List Char}

/-- What follows the opening parenthesis of a call. -/
def behindName (path items : String) (rest : List Char) : List Char :=
  inQuotes path.toList ++ ',' :: ' ' :: ('[' :: items.toList ++ ']' :: rest)

/-- A call of the router by a name, in front of what follows its opening parenthesis. -/
def called (name : String) (behind : List Char) : List Char :=
  "Router::".toList ++ name.toList ++ '(' :: behind

theorem toList_routerCallText (name path items : String) (rest : List Char) :
    (routerCallText name path items).toList ++ rest =
      called name (behindName path items (')' :: ';' :: rest)) := by
  unfold routerCallText called behindName
  simp only [String.toList_append, toList_quote, List.append_assoc]
  rfl

theorem map_called (name : String) (rest : List Char) :
    (called name rest).map Char.toLower =
      router ++ name.toList.map Char.toLower ++ '(' :: rest.map Char.toLower := by
  have hrouter : "Router::".toList.map Char.toLower = router := rfl
  have hopen : '('.toLower = '(' := by decide
  unfold called
  simp only [List.map_append, List.map_cons, hrouter, hopen]

/-- The path and the list of a call are read up to the closing bracket. -/
theorem callArguments?_behindName (hpath : path ≠ "") (hquote : '\'' ∉ path.toList)
    (hitems : ']' ∉ items.toList) :
    callArguments? ('(' :: behindName path items rest) =
      some ((path.toList, items.toList), rest) := by
  have hne : path.toList ≠ [] := by simpa using hpath
  have hopen : ∀ cs, Text.after? ['('] ('(' :: cs) = some cs := fun _ => rfl
  have hword : quotedWord? (inQuotes path.toList ++
      ',' :: ' ' :: '[' :: (items.toList ++ ']' :: rest)) =
        some (path.toList, ',' :: ' ' :: '[' :: (items.toList ++ ']' :: rest)) :=
    quotedWord?_inQuotes hquote hne
  have hcomma : ∀ cs, Text.after? [','] (Text.skipBlanks (',' :: cs)) = some cs := fun cs => by
    have hskip : Text.skipBlanks (',' :: cs) = ',' :: cs := List.dropWhile_cons_of_neg (by decide)
    rw [hskip]
    rfl
  have hlist : bracketed? (Text.skipBlanks (' ' :: '[' :: (items.toList ++ ']' :: rest))) =
      some (items.toList, rest) :=
    bracketed?_append hitems
  unfold callArguments? behindName
  simp only [hopen, hword, hcomma, hlist, List.cons_append, Option.bind_eq_bind, Option.bind_some]
  rfl

/-- The name of a call is read in whatever case it is spelt, and no letter outside of ASCII is taken
for one of its letters. -/
theorem routerCall?_eq_some_iff (hword : IsCallName word) :
    routerCall? word cs = some rest ↔
      ∃ u, cs = u ++ rest ∧ u.map Char.toLower = router ++ word.toList := by
  have hletters : ∀ w ∈ router ++ word.toList, Text.IsNoCapital w := by
    intro w hw
    rcases List.mem_append.1 hw with hw | hw
    · exact isNoCapital_of_mem_router w hw
    · exact (hword w hw).isNoCapital
  have hname : ("router::" ++ word).toList = router ++ word.toList := String.toList_append
  rw [routerCall?, hname, Text.afterAnyCase?_eq_some_iff]
  simp only [Text.map_fold_eq_iff hletters]

theorem routerCall?_of_eq (hword : IsCallName word)
    (h : name.toList.map Char.toLower = word.toList) :
    routerCall? word (called name rest) = some ('(' :: rest) := by
  have hstart : ("Router::".toList ++ name.toList).map Char.toLower = router ++ word.toList := by
    rw [List.map_append, h]
    rfl
  exact (routerCall?_eq_some_iff hword).2 ⟨_, rfl, hstart⟩

/-- What is read as the name of a call is a start of it. -/
theorem prefix_of_routerCall? {r : List Char} (hword : IsCallName word)
    (h : routerCall? word (called name rest) = some r) :
    word.toList <+: name.toList.map Char.toLower := by
  obtain ⟨u, hu, hlower⟩ := (routerCall?_eq_some_iff hword).1 h
  have hprefix : router ++ word.toList <+:
      router ++ name.toList.map Char.toLower ++ '(' :: rest.map Char.toLower := by
    refine ⟨r.map Char.toLower, ?_⟩
    rw [← map_called, hu, List.map_append, hlower]
  have hparenthesis : '(' ∉ router ++ word.toList := not_mem_append (by decide) hword.not_mem
  have hname := (Text.prefix_append_cons_iff hparenthesis).1 hprefix
  exact (List.prefix_append_right_inj router).1 hname

theorem routerCall?_eq_none (hword : IsCallName word)
    (h : ¬ word.toList <+: name.toList.map Char.toLower) :
    routerCall? word (called name rest) = none := by
  by_contra hsome
  obtain ⟨r, hr⟩ := Option.ne_none_iff_exists'.1 hsome
  exact h (prefix_of_routerCall? hword hr)

/-- The one verb that a call spells is read. -/
theorem findSome?_verb {v : Verb} (h : Text.IsCaseVariant name v.key) :
    (Verb.all.findSome? fun w => (routerCall? w.key (called name rest)).map fun r => (w, r)) =
      some (v, '(' :: rest) := by
  have hlower := Verb.isCaseVariant_iff.1 h
  -- no key is the start of another one
  have hother : ∀ w : Verb, w ≠ v → ¬ w.key.toList <+: v.key.toList := by
    cases v <;> intro w hw <;> cases w <;> first | exact (hw rfl).elim | decide
  have hread : ∀ w : Verb,
      (routerCall? w.key (called name rest)).map (fun r => (w, r)) =
        if w = v then some (v, '(' :: rest) else none := by
    intro w
    by_cases hw : w = v
    · subst hw
      rw [if_pos rfl, routerCall?_of_eq (isCallName_key w) hlower]
      rfl
    · rw [if_neg hw, routerCall?_eq_none (isCallName_key w) (by rw [hlower]; exact hother w hw)]
      rfl
  simp only [hread]
  cases v <;> rfl

/-- A call by a verb is read with its path and its handler reference. -/
theorem read?_called {v : Verb} (h : Text.IsCaseVariant name v.key) (hpath : path ≠ "")
    (hquote : '\'' ∉ path.toList) (hhandler : handler ≠ "") (hbracket : ']' ∉ handler.toList) :
    Call.read? (called name (behindName path handler rest)) =
      some (⟨v, path.toList, handler.toList⟩, rest) := by
  have hempty : handler.toList.isEmpty = false := by simpa using hhandler
  unfold Call.read?
  rw [findSome?_verb h, Option.bind_eq_bind, Option.bind_some]
  dsimp only
  rw [callArguments?_behindName hpath hquote hbracket, Option.bind_eq_bind, Option.bind_some]
  dsimp only
  rw [hempty]
  rfl

end Call

/-! ### Texts without a call -/

variable {source : String} {group : Group} {rest v : List Char}

/-- What is read of the router starts with its name. -/
theorem prefix_of_routerCall?_eq_some {word : String} (hword : IsCallName word) {cs r : List Char}
    (h : routerCall? word cs = some r) : router <+: cs.map Char.toLower := by
  obtain ⟨u, rfl, hlower⟩ := (routerCall?_eq_some_iff hword).1 h
  rw [List.map_append, hlower, List.append_assoc]
  exact List.prefix_append _ _

theorem prefix_of_group {cs : List Char} (h : (Group.read? cs).isSome = true) :
    router <+: cs.map Char.toLower := by
  obtain ⟨g, hg⟩ := Option.isSome_iff_exists.1 h
  obtain ⟨r, hr, -⟩ := Option.bind_eq_some_iff.1 hg
  exact prefix_of_routerCall?_eq_some isCallName_group hr

/-- A call is read by the name of a verb, right behind which its arguments start. -/
theorem exists_routerCall?_of_call {cs : List Char} (h : (Call.read? cs).isSome = true) :
    ∃ (v : Verb) (behind : List Char), routerCall? v.key cs = some ('(' :: behind) := by
  obtain ⟨c, hc⟩ := Option.isSome_iff_exists.1 h
  obtain ⟨⟨v, rest⟩, hverb, hrest⟩ := Option.bind_eq_some_iff.1 hc
  obtain ⟨arguments, harguments, -⟩ := Option.bind_eq_some_iff.1 hrest
  obtain ⟨behind, hopen, -⟩ := Option.bind_eq_some_iff.1 harguments
  obtain rfl : rest = '(' :: behind := Text.after?_eq_some_iff.1 hopen
  obtain ⟨w, -, hw⟩ := List.exists_of_findSome?_eq_some hverb
  obtain ⟨r, hr, hpair⟩ := Option.map_eq_some_iff.1 hw
  obtain ⟨rfl, rfl⟩ := Prod.mk.inj hpair
  exact ⟨w, behind, hr⟩

theorem prefix_of_call {cs : List Char} (h : (Call.read? cs).isSome = true) :
    router <+: cs.map Char.toLower := by
  obtain ⟨v, behind, hr⟩ := exists_routerCall?_of_call h
  exact prefix_of_routerCall?_eq_some (isCallName_key v) hr

/-- A text at no place of which a call starts, whatever follows it: its last character stands in no
start of a call, and there is none before it. -/
def IsQuiet (v : List Char) : Prop :=
  ∃ u c, v = u ++ [c] ∧ c.toLower ∉ router ∧ ¬ router <:+: u.map Char.toLower

theorem IsQuiet.firstAt?_append (h : IsQuiet v) (rest : List Char) :
    Text.firstAt? Group.read? (v ++ rest) = Text.firstAt? Group.read? rest := by
  obtain ⟨u, c, rfl, hc, hu⟩ := h
  exact Text.firstAt?_append (Text.eq_none_of_not_infix (fun _ => prefix_of_group) hc hu)

theorem IsQuiet.allAt_append (h : IsQuiet v) (rest : List Char) :
    Text.allAt Call.read? (v ++ rest) = Text.allAt Call.read? rest := by
  obtain ⟨u, c, rfl, hc, hu⟩ := h
  exact Text.allAt_append (Text.eq_none_of_not_infix (fun _ => prefix_of_call) hc hu)

theorem isQuiet_of_mem_lineBreaks {lineBreak : String} (h : lineBreak ∈ lineBreaks) :
    IsQuiet lineBreak.toList := by
  simp only [lineBreaks, List.mem_cons, List.not_mem_nil, or_false] at h
  rcases h with rfl | rfl | rfl | rfl | rfl
  · exact ⟨[], '\n', rfl, by decide, by decide⟩
  · exact ⟨['\r'], '\n', rfl, by decide, by decide⟩
  · exact ⟨[], '\r', rfl, by decide, by decide⟩
  · exact ⟨[], '\u2028', rfl, by decide, by decide⟩
  · exact ⟨[], '\u2029', rfl, by decide, by decide⟩

theorem isQuiet_end : IsQuiet [')', ';'] := ⟨[')'], ';', rfl, by decide, by decide⟩

/-! ### The texts of a call -/

theorem map_inQuotes (u : List Char) :
    (inQuotes u).map Char.toLower = inQuotes (u.map Char.toLower) := by
  simp [inQuotes]

theorem map_intercalate (f : Char → Char) (sep : List Char) : ∀ ps : List (List Char),
    (sep.intercalate ps).map f = (sep.map f).intercalate (ps.map (List.map f))
  | [] => by simp
  | [p] => by simp
  | p :: q :: ps => by
    rw [List.intercalate_cons_cons, List.map_append, List.map_append, map_intercalate f sep (q :: ps)]
    simp [List.intercalate_cons_cons]

theorem Lacks.contains_eq_false {characters : List Char} {s : String} (h : Lacks characters s) :
    Text.contains router (s.toList.map Char.toLower) = false :=
  Text.contains_eq_false_iff.2 h.noCall

/-- All that follows the first letter of a call up to its semicolon. -/
def behindFirst (name path items : String) : List Char :=
  "outer::".toList ++ name.toList ++ ['('] ++ (inQuotes path.toList ++ (", [".toList ++ (items.toList ++ "])".toList)))

theorem toList_routerCallText_cons (name path items : String) :
    (routerCallText name path items).toList = 'R' :: (behindFirst name path items ++ [';']) := by
  unfold routerCallText behindFirst
  simp only [String.toList_append, toList_quote, List.append_assoc]
  rfl

/-- No call starts behind the first letter of a call, if none starts in its texts. -/
theorem not_router_behindFirst {name path items : String}
    (hname : Text.contains router ("outer::".toList ++ name.toList.map Char.toLower ++ ['(']) = false)
    (hpath : Text.contains router (path.toList.map Char.toLower) = false)
    (hitems : Text.contains router
      (", [".toList ++ (items.toList.map Char.toLower ++ "])".toList)) = false) :
    ¬ router <:+: (behindFirst name path items).map Char.toLower := by
  have hmap : (behindFirst name path items).map Char.toLower =
      "outer::".toList ++ name.toList.map Char.toLower ++ ['('] ++
        (inQuotes (path.toList.map Char.toLower) ++
          (", [".toList ++ (items.toList.map Char.toLower ++ "])".toList))) := by
    have hstart : "outer::".toList.map Char.toLower = "outer::".toList := by decide
    have hopen : ['('].map Char.toLower = ['('] := by decide
    have hbetween : ", [".toList.map Char.toLower = ", [".toList := by decide
    have hend : "])".toList.map Char.toLower = "])".toList := by decide
    unfold behindFirst
    rw [List.map_append, List.map_append, List.map_append, List.map_append, List.map_append,
      List.map_append, map_inQuotes, hstart, hopen, hbetween, hend]
  rw [← Text.contains_eq_false_iff, hmap, contains_inQuotes (by decide), hname, hpath, hitems]
  rfl

theorem isQuiet_behindFirst {name path items : String}
    (h : ¬ router <:+: (behindFirst name path items).map Char.toLower) :
    IsQuiet (behindFirst name path items ++ [';']) :=
  ⟨_, ';', rfl, by decide, h⟩

/-- The quoted names of a group. -/
theorem contains_names {ms : List String} (h : ∀ m ∈ ms, Lacks ['\'', ',', '[', ']'] m) :
    Text.contains router (", [".toList ++
      ((", ".intercalate (ms.map quote)).toList.map Char.toLower ++ "])".toList)) = false := by
  have hlower : (", ".intercalate (ms.map quote)).toList.map Char.toLower =
      [',', ' '].intercalate ((ms.map fun m => m.toList.map Char.toLower).map inQuotes) := by
    rw [toList_intercalate_quote, map_intercalate, List.map_map, List.map_map, List.map_map]
    refine congrArg _ (List.map_congr_left fun m _ => ?_)
    exact map_inQuotes m.toList
  rw [hlower]
  cases ms with
  | nil => decide
  | cons m ms =>
    refine contains_intercalate (by decide) (by decide) (by decide) (by decide) fun x hx => ?_
    rw [← List.map_cons (f := fun m : String => m.toList.map Char.toLower)] at hx
    obtain ⟨m', hm', rfl⟩ := List.mem_map.1 hx
    exact (h m' hm').contains_eq_false

theorem contains_handler {characters : List Char} {handler : String}
    (h : Lacks characters handler) :
    Text.contains router
      (", [".toList ++ (handler.toList.map Char.toLower ++ "])".toList)) = false := by
  have htext : ", [".toList ++ (handler.toList.map Char.toLower ++ "])".toList) =
      ", ".toList ++ '[' :: (handler.toList.map Char.toLower ++ ']' :: [')']) := rfl
  rw [htext, Text.contains_append_cons (by decide), Text.contains_append_cons (by decide),
    h.contains_eq_false]
  decide

/-! ### One statement -/

namespace Statement

/-- Behind its first letter a statement is quiet. -/
theorem text_eq_cons {s : Statement} (h : s.IsCanonical) :
    ∃ v, IsQuiet v ∧ s.text.toList = 'R' :: v := by
  cases s with
  | group path ms =>
    obtain ⟨-, hpath, hms⟩ := h
    have hname : Text.contains router
        ("outer::".toList ++ "group".toList.map Char.toLower ++ ['(']) = false := by decide
    have hinside := not_router_behindFirst hname hpath.contains_eq_false (contains_names hms)
    refine ⟨_, isQuiet_behindFirst hinside, ?_⟩
    exact toList_routerCallText_cons _ _ _
  | route spelling path handler =>
    obtain ⟨⟨v, hv⟩, -, hpath, -, hhandler⟩ := h
    have hname : Text.contains router
        ("outer::".toList ++ spelling.toList.map Char.toLower ++ ['(']) = false := by
      rw [Verb.isCaseVariant_iff.1 hv]
      cases v <;> decide
    have hinside := not_router_behindFirst hname hpath.contains_eq_false (contains_handler hhandler)
    refine ⟨_, isQuiet_behindFirst hinside, ?_⟩
    exact toList_routerCallText_cons _ _ _

/-- What is read as a group at the start of a statement. -/
theorem read?_group {s : Statement} (h : s.IsCanonical) (rest : List Char) :
    Group.read? (s.text.toList ++ rest) = s.group? := by
  cases s with
  | group path ms =>
    obtain ⟨hne, hpath, hms⟩ := h
    have hquote : ∀ m ∈ ms.map String.toList, '\'' ∉ m := by
      intro m hm
      obtain ⟨s, hs, rfl⟩ := List.mem_map.1 hm
      exact (hms s hs).characters _ (by decide)
    have hcomma : ∀ m ∈ ms.map String.toList, ',' ∉ m := by
      intro m hm
      obtain ⟨s, hs, rfl⟩ := List.mem_map.1 hm
      exact (hms s hs).characters _ (by decide)
    have hbracket : ']' ∉ (", ".intercalate (ms.map quote)).toList := by
      rw [toList_intercalate_quote]
      refine not_mem_intercalate (by decide) fun p hp => ?_
      obtain ⟨m, hm, rfl⟩ := List.mem_map.1 hp
      obtain ⟨s, hs, rfl⟩ := List.mem_map.1 hm
      exact not_mem_inQuotes (by decide) ((hms s hs).characters _ (by decide))
    have hnames : middlewareNames (", ".intercalate (ms.map quote)).toList = ms := by
      rw [toList_intercalate_quote, middlewareNames_intercalate hcomma hquote, List.map_map]
      simp
    unfold Group.read? text
    rw [toList_routerCallText, routerCall?_of_eq isCallName_group (by decide),
      Option.bind_eq_bind, Option.bind_some,
      callArguments?_behindName hne (hpath.characters _ (by decide)) hbracket, Option.bind_eq_bind,
      Option.bind_some]
    dsimp only
    rw [hnames, String.ofList_toList]
    rfl
  | route spelling path handler =>
    obtain ⟨⟨v, hv⟩, -⟩ := h
    have hgroup : ¬ "group".toList <+: spelling.toList.map Char.toLower := by
      rw [Verb.isCaseVariant_iff.1 hv]
      cases v <;> decide
    unfold Group.read? text
    rw [toList_routerCallText, routerCall?_eq_none isCallName_group hgroup]
    rfl

/-- The search for a group passes from statement to statement up to the first group. -/
theorem firstAt?_append {s : Statement} (h : s.IsCanonical) (rest : List Char) :
    Text.firstAt? Group.read? (s.text.toList ++ rest) =
      (s.group? <|> Text.firstAt? Group.read? rest) := by
  have hread := read?_group h rest
  obtain ⟨v, hv, htext⟩ := text_eq_cons h
  rw [htext, List.cons_append] at hread ⊢
  rw [Text.firstAt?, hread, hv.firstAt?_append]

/-- The search for calls passes from statement to statement; a route is one of its readings. -/
theorem allAt_append {s : Statement} (h : s.IsCanonical) (source : String) (group : Group)
    (rest : List Char) :
    (Text.allAt Call.read? (s.text.toList ++ rest)).map (fun c => c.route source group) =
      (s.route? source group).toList ++
        (Text.allAt Call.read? rest).map fun c => c.route source group := by
  obtain ⟨v, hv, htext⟩ := text_eq_cons h
  cases s with
  | group path ms =>
    have hnone : Call.read? ('R' :: (v ++ rest)) = none := by
      have hcall : ∀ w : Verb, routerCall? w.key ('R' :: (v ++ rest)) = none := by
        intro w
        rw [← List.cons_append, ← htext, text, toList_routerCallText]
        exact routerCall?_eq_none (isCallName_key w) (by cases w <;> decide)
      unfold Call.read?
      simp only [hcall]
      rfl
    rw [htext, List.cons_append, Text.allAt_cons_of_none hnone, hv.allAt_append]
    rfl
  | route spelling path handler =>
    obtain ⟨⟨verb, hverb⟩, hne, hpath, hhandler, hlacks⟩ := h
    have hsome : Call.read? ('R' :: (v ++ rest)) =
        some (⟨verb, path.toList, handler.toList⟩, ')' :: ';' :: rest) := by
      rw [← List.cons_append, ← htext, text, toList_routerCallText]
      exact read?_called hverb hne (hpath.characters _ (by decide)) hhandler
        (hlacks.characters _ (by decide))
    have hlength : (')' :: ';' :: rest).length ≤ (v ++ rest).length := by
      have htotal := congrArg List.length htext
      simp only [text, routerCallText, String.toList_append, List.length_append,
        List.length_cons] at htotal ⊢
      have hstart : "Router::".toList.length = 8 := by decide
      omega
    have hend : Text.allAt Call.read? (')' :: ';' :: rest) = Text.allAt Call.read? rest :=
      isQuiet_end.allAt_append rest
    have hroute : (Statement.route spelling path handler).route? source group =
        some ((Call.mk verb path.toList handler.toList).route source group) := by
      have hmethod := Verb.uppercase_of_isCaseVariant hverb
      rw [route?, hmethod, Call.route, String.ofList_toList]
      rfl
    rw [htext, List.cons_append, Text.allAt_cons_of_some hsome hlength, List.map_cons, hend, hroute]
    rfl

end Statement

/-! ### The statements of a file -/

theorem toList_routesFile_cons (lineBreak : String) (s s' : Statement) (ss : List Statement) :
    (routesFile lineBreak (s :: s' :: ss)).toList =
      s.text.toList ++ (lineBreak.toList ++ (routesFile lineBreak (s' :: ss)).toList) := by
  unfold routesFile
  rw [List.map_cons, List.map_cons, String.intercalate_cons_cons, String.toList_append,
    String.toList_append, List.append_assoc]

theorem toList_routesFile_singleton (lineBreak : String) (s : Statement) :
    (routesFile lineBreak [s]).toList = s.text.toList ++ [] := by
  simp [routesFile]

theorem findSome?_group_cons (s : Statement) (ss : List Statement) :
    (s :: ss).findSome? Statement.group? = (s.group? <|> ss.findSome? Statement.group?) := by
  rw [List.findSome?_cons]
  cases s.group? <;> rfl

/-- **The group of a file.** By induction on the statements: the search goes on behind every route
and stops at the first group. -/
theorem find?_routesFile {lineBreak : String} (hbreak : lineBreak ∈ lineBreaks) :
    ∀ {ss : List Statement}, (∀ s ∈ ss, s.IsCanonical) →
      Group.find? (routesFile lineBreak ss).toList = ss.findSome? Statement.group?
  | [], _ => rfl
  | [s], h => by
    have hs := h s List.mem_cons_self
    rw [toList_routesFile_singleton, Group.find?, s.firstAt?_append hs, findSome?_group_cons]
    rfl
  | s :: s' :: ss, h => by
    obtain ⟨hs, hss⟩ := List.forall_mem_cons.1 h
    have ih := find?_routesFile hbreak hss
    unfold Group.find? at ih ⊢
    rw [toList_routesFile_cons, s.firstAt?_append hs,
      (isQuiet_of_mem_lineBreaks hbreak).firstAt?_append, ih, findSome?_group_cons s]

/-- **The routes of a file.** By induction on the statements: the search stands at the start of a
statement each time it has read one. -/
theorem allAt_routesFile {lineBreak : String} (hbreak : lineBreak ∈ lineBreaks) (source : String)
    (group : Group) : ∀ {ss : List Statement}, (∀ s ∈ ss, s.IsCanonical) →
      (Text.allAt Call.read? (routesFile lineBreak ss).toList).map (fun c => c.route source group) =
        ss.filterMap (Statement.route? source group)
  | [], _ => by
    have hnil : (routesFile lineBreak []).toList = [] := rfl
    rw [hnil, Text.allAt]
    rfl
  | [s], h => by
    have hs := h s List.mem_cons_self
    rw [toList_routesFile_singleton, s.allAt_append hs, Text.allAt, List.filterMap_cons]
    cases s.route? source group <;> rfl
  | s :: s' :: ss, h => by
    obtain ⟨hs, hss⟩ := List.forall_mem_cons.1 h
    have ih := allAt_routesFile hbreak source group hss
    rw [toList_routesFile_cons, s.allAt_append hs,
      (isQuiet_of_mem_lineBreaks hbreak).allAt_append, ih, List.filterMap_cons (l := s' :: ss)]
    cases s.route? source group <;> rfl

/-- **Canonical routes files are read back.** The search of a canonical routes file finds one route
for each route statement, in their order, and no other; the first group statement holds for all of
them, wherever it stands. -/
theorem registered_routesFile {lineBreak : String} (hbreak : lineBreak ∈ lineBreaks)
    {statements : List Statement} (h : ∀ s ∈ statements, s.IsCanonical) (source : String) :
    registered source (routesFile lineBreak statements).toList =
      statements.filterMap (Statement.route? source (fileGroup statements)) := by
  have hgroup : (Group.find? (routesFile lineBreak statements).toList).getD
      { path := "", middleware := [] } = fileGroup statements := by
    rw [find?_routesFile hbreak h]
    rfl
  unfold registered
  dsimp only
  rw [hgroup, allAt_routesFile hbreak source _ h]

/-- Routes before and behind two groups, in texts that hold quotes, parentheses and line breaks
where they may. -/
def sampleStatements : List Statement :=
  [.route "PaTcH" "/early (draft)" " EarlyController::class, 'run' ",
    .group "/v2" ["auth", "", "rate limit"], .group "/ignored" [],
    .route "put" "/\nlate;" "Late::put('/x')"]

theorem sampleStatements_isCanonical : ∀ s ∈ sampleStatements, s.IsCanonical := by
  decide +kernel

theorem registered_routesFile_sample :
    "\r\n" ∈ lineBreaks ∧ (∀ s ∈ sampleStatements, s.IsCanonical) ∧
      registered "/app/routes.php" (routesFile "\r\n" sampleStatements).toList =
        [⟨"PATCH", "/v2/early (draft)", "Router route", "EarlyController::class, 'run'", "",
            "/app/routes.php", ["auth", "", "rate limit"], .registered⟩,
          ⟨"PUT", "/v2/\nlate;", "Router route", "Late::put('/x')", "", "/app/routes.php",
            ["auth", "", "rate limit"], .registered⟩] := by
  have hbreak : "\r\n" ∈ lineBreaks := by decide
  refine ⟨hbreak, sampleStatements_isCanonical, ?_⟩
  exact (registered_routesFile hbreak sampleStatements_isCanonical "/app/routes.php").trans
    (by decide +kernel)

end ApiReport.Route
