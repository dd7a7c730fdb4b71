import ApiReport.Proofs.Route.Registration
import ApiReport.Spec.Operation

/-!
# Both reports know the same verbs

An operation is reported if the lower case of its key is one of five words, and a route if the name
of its call is one of them once both are folded. Outside of ASCII lower case and folding do not
agree, but neither takes a character for a letter of a verb there: folding never leads into ASCII,
and lower case leads to `i` and `k` only, which no verb has. So both reports know the spellings of a
verb in small and capital letters of ASCII, and no others.

That a call by any other name is no route does not follow from its name alone. A verb may be the
start of the name, and is read there, but then its parenthesis does not follow. And no other call
starts behind the first letter of the text, if none starts in the texts of its arguments.

Key definitions: `Route.callText`.
Key theorems: `Route.exists_isCaseVariant_of_read?`, `Route.registered_callText`,
`Route.registered_callText_ne_nil_iff`, `Spec.ofEntry?_isSome_iff`, `Verb.recognised_alike`.
-/
namespace ApiReport

namespace Route

open Text (not_mem_append)

variable {name path handler : String} {cs : List Char}

/-- The text of one route call. -/
def callText (name path handler : String) : String :=
  "Router::" ++ name ++ "(" ++ quote path ++ ", [" ++ handler ++ "])"

theorem toList_callText (name path handler : String) :
    (callText name path handler).toList = called name (behindName path handler [')']) := by
  unfold callText called behindName
  simp only [String.toList_append, toList_quote, List.append_assoc]
  rfl

theorem toList_callText_cons (name path handler : String) :
    (callText name path handler).toList = 'R' :: behindFirst name path handler := by
  unfold callText behindFirst
  simp only [String.toList_append, toList_quote, List.append_assoc]
  rfl

/-! ### What is read at the start of a call -/

/-- The arguments of a call start at its first parenthesis, so all of its name spells a verb. -/
theorem exists_isCaseVariant_of_read? {behind : List Char} (hname : '(' ∉ name.toList)
    (h : (Call.read? (called name behind)).isSome = true) :
    ∃ v : Verb, Text.IsCaseVariant name v.key := by
  obtain ⟨v, arguments, hcall⟩ := exists_routerCall?_of_call h
  obtain ⟨u, hu, hlower⟩ := (routerCall?_eq_some_iff (isCallName_key v)).1 hcall
  have hfront : '(' ∉ "Router::".toList ++ name.toList := not_mem_append (by decide) hname
  have hparenthesis : '(' ∉ u := by
    intro hmem
    have hmap : '(' ∈ router ++ v.key.toList := hlower ▸ List.mem_map_of_mem hmem
    exact not_mem_append (by decide) (isCallName_key v).not_mem hmap
  obtain ⟨hspelt, -⟩ := Text.append_cons_inj hfront hparenthesis hu
  have hrouter : "Router::".toList.map Char.toLower = router := rfl
  rw [← hspelt, List.map_append, hrouter] at hlower
  exact ⟨v, Verb.isCaseVariant_iff.2 (List.append_cancel_left hlower)⟩

/-! ### All that is read of a call -/

theorem allAt_eq_nil (h : ¬ router <:+: cs.map Char.toLower) : Text.allAt Call.read? cs = [] := by
  rw [← List.append_nil cs, Text.allAt_append, Text.allAt]
  intro w _ hw
  rw [List.append_nil]
  by_contra hsome
  have hprefix := prefix_of_call (Option.isSome_iff_ne_none.2 hsome)
  have hinside : router <:+: w.map Char.toLower := hprefix.isInfix
  have hsuffix : w.map Char.toLower <:+ cs.map Char.toLower := hw.map Char.toLower
  exact h (hinside.trans hsuffix.isInfix)

/-- A name without a colon does not complete the start of a call that it stands behind. -/
theorem contains_name (hcolon : ':' ∉ name.toList) :
    Text.contains router ("outer::".toList ++ name.toList.map Char.toLower ++ ['(']) = false := by
  have hmem : ':' ∉ name.toList.map Char.toLower ++ ['('] :=
    not_mem_append (fun h => hcolon (Text.mem_of_mem_map_toLower (by decide) h)) (by decide)
  have hbehind : Text.contains router ("outer::".toList ++ (name.toList.map Char.toLower ++ ['('])) =
      Text.contains router (name.toList.map Char.toLower ++ ['(']) := rfl
  rw [List.append_assoc, hbehind]
  exact Text.contains_of_not_mem (c := ':') (by decide) hmem

section

variable (hquote : Lacks ['\''] path) (hbracket : Lacks [']'] handler)

include hquote hbracket

theorem allAt_behindFirst (hcolon : ':' ∉ name.toList) :
    Text.allAt Call.read? (behindFirst name path handler) = [] :=
  allAt_eq_nil (not_router_behindFirst (contains_name hcolon) hquote.contains_eq_false
    (contains_handler hbracket))

/-- A call by no verb is no route. -/
theorem allAt_callText_eq_nil (hcolon : ':' ∉ name.toList) (hparenthesis : '(' ∉ name.toList)
    (h : ¬ ∃ v : Verb, Text.IsCaseVariant name v.key) :
    Text.allAt Call.read? (callText name path handler).toList = [] := by
  have hnone : Call.read? (callText name path handler).toList = none := by
    rw [toList_callText]
    by_contra hsome
    exact h (exists_isCaseVariant_of_read? hparenthesis (Option.isSome_iff_ne_none.2 hsome))
  rw [toList_callText_cons] at hnone ⊢
  rw [Text.allAt_cons_of_none hnone, allAt_behindFirst hquote hbracket hcolon]

/-- A call by a verb is one route. -/
theorem allAt_callText_of_isCaseVariant {v : Verb} (h : Text.IsCaseVariant name v.key)
    (hpath : path ≠ "") (hhandler : handler ≠ "") :
    Text.allAt Call.read? (callText name path handler).toList =
      [⟨v, path.toList, handler.toList⟩] := by
  have hread : Call.read? (callText name path handler).toList =
      some (⟨v, path.toList, handler.toList⟩, [')']) := by
    rw [toList_callText]
    exact read?_called h hpath (hquote.characters _ (by decide)) hhandler
      (hbracket.characters _ (by decide))
  have hend : Text.allAt Call.read? [')'] = [] := allAt_eq_nil (by decide)
  rw [toList_callText_cons] at hread ⊢
  have hne : behindFirst name path handler ≠ [] :=
    List.append_ne_nil_of_right_ne_nil _ (by simp [inQuotes])
  have hlength : [')'].length ≤ (behindFirst name path handler).length :=
    List.length_pos_of_ne_nil hne
  rw [Text.allAt_cons_of_some hread hlength, hend]

theorem registered_callText {v : Verb} (h : Text.IsCaseVariant name v.key) (hpath : path ≠ "")
    (hhandler : handler ≠ "") (source : String) :
    ∃ r, registered source (callText name path handler).toList = [r] ∧ r.method = v.method := by
  unfold registered
  dsimp only
  rw [allAt_callText_of_isCaseVariant hquote hbracket h hpath hhandler]
  exact ⟨_, rfl, rfl⟩

theorem registered_callText_ne_nil_iff (hcolon : ':' ∉ name.toList)
    (hparenthesis : '(' ∉ name.toList) (hpath : path ≠ "") (hhandler : handler ≠ "")
    (source : String) :
    registered source (callText name path handler).toList ≠ [] ↔
      ∃ v : Verb, Text.IsCaseVariant name v.key := by
  constructor
  · intro hne
    by_contra hno
    refine hne ?_
    unfold registered
    dsimp only
    rw [allAt_callText_eq_nil hquote hbracket hcolon hparenthesis hno, List.map_nil]
  · rintro ⟨v, hv⟩
    obtain ⟨r, hr, -⟩ := registered_callText hquote hbracket hv hpath hhandler source
    rw [hr]
    exact List.cons_ne_nil r []

end

end Route

theorem Spec.ofEntry?_isSome_iff {path key : String} {raw : Value} {security : Option Value} :
    (Spec.Operation.ofEntry? path key raw security).isSome = true ↔
      ∃ v : Verb, Text.IsCaseVariant key v.key := by
  rw [Spec.Operation.ofEntry?, Option.isSome_map, Option.isSome_iff_exists]
  simp only [Verb.ofAnyCase?_eq_some_iff]

namespace Verb

open Route (registered callText Lacks)

theorem method_mem (v : Verb) : v.method ∈ ["GET", "POST", "PUT", "PATCH", "DELETE"] := by
  cases v <;> decide

/-- **Both reports know the same verbs.** Take any text without a colon and without an opening
parenthesis, as texts of letters are. A call of the router by this name registers a route if and
only if the entry of a path item with this key is reported as an operation, and that is if the text
spells a verb but for the case of letters of ASCII. Then there is one route, and both are reported
with the method of the verb, which is the upper case of the text. -/
theorem recognised_alike {spelling path handler : String} (hcolon : ':' ∉ spelling.toList)
    (hparenthesis : '(' ∉ spelling.toList) (hpath : path ≠ "") (hquote : Lacks ['\''] path)
    (hhandler : handler ≠ "") (hbracket : Lacks [']'] handler) (source itemPath : String)
    (raw : Value) (security : Option Value) :
    (registered source (callText spelling path handler).toList ≠ [] ↔
      (Spec.Operation.ofEntry? itemPath spelling raw security).isSome = true) ∧
    ((Spec.Operation.ofEntry? itemPath spelling raw security).isSome = true ↔
      ∃ v : Verb, Text.IsCaseVariant spelling v.key) ∧
    ∀ v : Verb, Text.IsCaseVariant spelling v.key →
      (∃ r, registered source (callText spelling path handler).toList = [r] ∧
        r.method = v.method) ∧
      (∃ o, Spec.Operation.ofEntry? itemPath spelling raw security = some o ∧
        o.verb.method = v.method) ∧
      v.method = String.ofList (Text.uppercase spelling.toList) ∧
      v.method ∈ ["GET", "POST", "PUT", "PATCH", "DELETE"] := by
  have hroute := Route.registered_callText_ne_nil_iff hquote hbracket hcolon hparenthesis hpath
    hhandler source
  have hoperation : (Spec.Operation.ofEntry? itemPath spelling raw security).isSome = true ↔
      ∃ v : Verb, Text.IsCaseVariant spelling v.key := Spec.ofEntry?_isSome_iff
  refine ⟨hroute.trans hoperation.symm, hoperation, fun v hv => ⟨?_, ?_, ?_, method_mem v⟩⟩
  · exact Route.registered_callText hquote hbracket hv hpath hhandler source
  · rw [Spec.Operation.ofEntry?, ofAnyCase?_eq_some_iff.2 hv]
    exact ⟨_, rfl, rfl⟩
  · exact (uppercase_of_isCaseVariant hv).symm

/-- A spelling in mixed case, and the body of an operation of the wrong shape. -/
theorem recognised_alike_sample :
    ':' ∉ "pAtCh".toList ∧ '(' ∉ "pAtCh".toList ∧ "/p" ≠ "" ∧ Lacks ['\''] "/p" ∧ "H" ≠ "" ∧
      Lacks [']'] "H" ∧ Text.IsCaseVariant "pAtCh" patch.key ∧
      (∃ r, registered "/app/routes.php" (callText "pAtCh" "/p" "H").toList = [r] ∧
        r.method = "PATCH") ∧
      ∃ o, Spec.Operation.ofEntry? "/users" "pAtCh" (.text "none") none = some o ∧
        o.verb.method = "PATCH" := by
  have hcolon : ':' ∉ "pAtCh".toList := by decide
  have hparenthesis : '(' ∉ "pAtCh".toList := by decide
  have hquote : Lacks ['\''] "/p" := by decide +kernel
  have hbracket : Lacks [']'] "H" := by decide +kernel
  have hverb : Text.IsCaseVariant "pAtCh" patch.key := isCaseVariant_iff.2 rfl
  obtain ⟨-, -, halike⟩ := recognised_alike hcolon hparenthesis (by decide) hquote (by decide)
    hbracket "/app/routes.php" "/users" (.text "none") none
  obtain ⟨hroute, hoperation, -⟩ := halike patch hverb
  exact ⟨hcolon, hparenthesis, by decide, hquote, by decide, hbracket, hverb, hroute, hoperation⟩

/-- The long s has the upper case `S`, and is no letter of a verb all the same. -/
example : registered "/app/routes.php" (callText "po\u017ft" "/p" "H").toList = [] := by
  decide +kernel

end Verb

end ApiReport
