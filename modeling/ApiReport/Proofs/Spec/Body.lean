import ApiReport.Proofs.Spec.Agreement
import ApiReport.Proofs.Text.Find
import ApiReport.Spec.Report

/-!
# Request bodies whose content is no mapping

Whether a request body is reported depends on its keys alone, and what is reported of it on its
content. A content that is no mapping says nothing, but its key is there: such a body is reported
with no media types, whatever else it holds. Once the content is taken away, the body is reported
only if it has another key, and its block is shown only then. Nothing else that an operation reports
looks at the body.

Key definitions: `without`, `HasOther`, `bodyTitle`.
Key theorems: `ofEntry?_put_body`, `mem_lines_bodyTitle`, `ofEntry?_of_unread`,
`not_unread_absent`.
-/
namespace ApiReport.Spec

variable {path key : String} {security : Option Value} {entries body : List (String × Value)}
  {content : Value}

/-- A mapping without a key. -/
def without (key : String) (entries : List (String × Value)) : List (String × Value) :=
  entries.filter fun e => e.1 != key

/-- A body has a name for something else than its content. -/
def HasOther (body : List (String × Value)) : Prop :=
  ∃ name ∈ body.map Prod.fst, name ≠ "content" ∧ name ≠ "__proto__"

instance : DecidablePred HasOther := fun body =>
  inferInstanceAs (Decidable (∃ name ∈ body.map Prod.fst, _))

/-! ### Keys that are taken away -/

theorem lookup_without (key : String) (entries : List (String × Value)) :
    (without key entries).lookup key = none := by
  rw [lookup_eq_none_iff_keys, List.mem_map]
  rintro ⟨e, he, hkey⟩
  have hne := (List.mem_filter.1 he).2
  rw [hkey] at hne
  exact bne_iff_ne.1 hne rfl

theorem names_without_content :
    names (.mapping (without "content" body)) = [] ↔ ¬ HasOther body := by
  show ((body.filter _).filter _ = []) ↔ _
  rw [List.filter_filter, List.filter_eq_nil_iff]
  constructor
  · rintro hnone ⟨name, hname, hcontent, hproto⟩
    obtain ⟨e, he, rfl⟩ := List.mem_map.1 hname
    refine hnone e he ?_
    rw [Bool.and_eq_true, bne_iff_ne, bne_iff_ne]
    exact ⟨hproto, hcontent⟩
  · intro hnone e he hkept
    rw [Bool.and_eq_true, bne_iff_ne, bne_iff_ne] at hkept
    exact hnone ⟨e.1, List.mem_map_of_mem he, hkept.2, hkept.1⟩

/-! ### What is reported of a body -/

/-- The media types that are reported of a value that stands in the place of a body. -/
def bodyOf (v : Value) : Option (List ContentEntry) :=
  (RequestBody.ofValue? v).bind RequestBody.reported

theorem bodyOf_mapping (body : List (String × Value)) : bodyOf (.mapping body) =
    if names (.mapping body) = [] then none
    else some (contentEntries (contentField? (.mapping body))) := by
  exact body_reported (.mapping [("requestBody", .mapping body)]) "requestBody"

/-- A content that is not read leaves its key. -/
theorem bodyOf_unread (hcontent : body.lookup "content" = some content)
    (hunread : content.entries? = none) : bodyOf (.mapping body) = some [] := by
  have hkey : ("content", content) ∈ names (.mapping body) :=
    List.mem_filter.2 ⟨mem_of_lookup hcontent, rfl⟩
  have hfield : contentField? (.mapping body) = none := by
    show (body.lookup "content").bind (namesOf? MediaType.ofValue) = none
    rw [hcontent, Option.bind_some, namesOf?, hunread]
    rfl
  rw [bodyOf_mapping, if_neg (List.ne_nil_of_mem hkey), hfield]
  rfl

theorem bodyOf_without (body : List (String × Value)) :
    bodyOf (.mapping (without "content" body)) = if HasOther body then some [] else none := by
  have hfield : contentField? (.mapping (without "content" body)) = none := by
    show ((without "content" body).lookup "content").bind (namesOf? MediaType.ofValue) = none
    rw [lookup_without]
    rfl
  rw [bodyOf_mapping, hfield]
  by_cases hother : HasOther body
  · rw [if_pos hother, if_neg (mt names_without_content.1 (not_not_intro hother))]
    rfl
  · rw [if_neg hother, if_pos (names_without_content.2 hother)]

/-! ### What is reported of an operation -/

theorem get?_put_of_ne {k : String} (h : k ≠ key) (v : Value) :
    (Value.mapping (Entries.put key v entries)).get? k = (Value.mapping entries).get? k := by
  show (Entries.put key v entries).lookup k = entries.lookup k
  rw [Entries.lookup_put, if_neg h]

/-- Another body changes nothing in an operation but what is reported of the body. -/
theorem ofEntry?_put_body (path key : String) (entries : List (String × Value))
    (security : Option Value) (v : Value) :
    Operation.ofEntry? path key (.mapping (Entries.put "requestBody" v entries)) security =
      (Operation.ofEntry? path key (.mapping entries) security).map
        fun op => { op with requestBody := bodyOf v } := by
  have hsame : ∀ k, k ≠ "requestBody" →
      (Value.mapping (Entries.put "requestBody" v entries)).get? k =
        (Value.mapping entries).get? k := fun k hk => get?_put_of_ne hk v
  have hbody :
      (Value.mapping (Entries.put "requestBody" v entries)).get? "requestBody" = some v := by
    show (Entries.put "requestBody" v entries).lookup "requestBody" = some v
    rw [Entries.lookup_put, if_pos rfl]
  unfold Operation.ofEntry?
  cases Verb.ofAnyCase? key with
  | none => rfl
  | some verb =>
    rw [Option.map_some, Option.map_some, Option.map_some]
    dsimp only [OperationObject.ofValue, textField?]
    rw [hasRequirement_ite, hasRequirement_ite, hbody, hsame "summary" (by decide),
      hsame "description" (by decide), hsame "tags" (by decide), hsame "security" (by decide),
      hsame "parameters" (by decide), hsame "responses" (by decide), Option.bind_some, bodyOf]

/-- The body that an operation reports is the one that its mapping holds. -/
theorem requestBody_eq_bodyOf {op : Operation} {v : Value}
    (h : Operation.ofEntry? path key (.mapping entries) security = some op)
    (hbody : entries.lookup "requestBody" = some v) : op.requestBody = bodyOf v := by
  unfold Operation.ofEntry? at h
  obtain ⟨verb, -, rfl⟩ := Option.map_eq_some_iff.1 h
  show (((Value.mapping entries).get? "requestBody").bind RequestBody.ofValue?).bind _ = _
  rw [Value.get?, hbody, Option.bind_some, bodyOf]

/-! ### The block of a body -/

/-- The line that starts the block of a body. -/
def bodyTitle : String := "**Request Body:**"

/-- A line that starts with words that the title does not start with is another line. -/
theorem bodyTitle_ne {start : String} (h : ¬ start.toList <+: bodyTitle.toList) (s : String) :
    bodyTitle ≠ start ++ s :=
  (Text.append_ne_of_not_prefix h s).symm

theorem bodyTitle_not_mem_labelled {label : String} (value : Option String)
    (h : ¬ ("**" ++ label ++ ":** ").toList <+: bodyTitle.toList) :
    bodyTitle ∉ labelled label value := by
  unfold labelled
  split
  · rw [List.mem_singleton]
    exact bodyTitle_ne h _
  · exact List.not_mem_nil

theorem bodyTitle_not_mem_block {title : String} {block : List String} (htitle : bodyTitle ≠ title)
    (hblock : ∀ line ∈ block, bodyTitle ≠ line) : bodyTitle ∉ [title] ++ block ++ [""] := by
  rw [List.mem_append, List.mem_append, List.mem_singleton, List.mem_singleton]
  rintro ((h | h) | h)
  · exact htitle h
  · exact hblock _ h rfl
  · revert h
    decide

theorem bodyTitle_ne_parameter (p : OperationParameter) : bodyTitle ≠ p.line := by
  unfold OperationParameter.line
  dsimp only
  simp only [String.append_assoc]
  exact bodyTitle_ne (by decide) _

theorem bodyTitle_ne_content (e : ContentEntry) : bodyTitle ≠ e.line "  " := by
  unfold ContentEntry.line
  simp only [String.append_assoc]
  exact bodyTitle_ne (by decide) _

theorem bodyTitle_ne_response (r : OperationResponse) : ∀ line ∈ r.lines, bodyTitle ≠ line := by
  unfold OperationResponse.lines
  rw [List.forall_mem_cons, List.forall_mem_map]
  constructor
  · rw [String.append_assoc, String.append_assoc]
    exact bodyTitle_ne (by decide) _
  · exact fun e _ => bodyTitle_ne_content e

/-- The section of an operation shows the block of its body if there is one to report. -/
theorem mem_lines_bodyTitle (o : Operation) : bodyTitle ∈ o.lines ↔ o.requestBody ≠ none := by
  unfold Operation.lines
  simp only [List.mem_append]
  cases o.requestBody with
  | some content => simp [bodyTitle]
  | none =>
    refine iff_of_false ?_ (not_not_intro rfl)
    rintro ((((((((h | h) | h) | h) | h) | h) | h) | h) | h)
    · rw [List.mem_singleton, Operation.heading, String.append_assoc, String.append_assoc] at h
      exact bodyTitle_ne (by decide) _ h
    · exact bodyTitle_not_mem_labelled o.summary (by decide) h
    · exact bodyTitle_not_mem_labelled o.description (by decide) h
    · split at h
      · cases h
      · exact bodyTitle_ne (by decide) _ (List.mem_singleton.1 h)
    · rcases List.mem_cons.1 h with h | h
      · exact bodyTitle_ne (by decide) _ h
      · revert h
        decide
    · split at h
      · cases h
      · exact bodyTitle_not_mem_block (by decide)
          (List.forall_mem_map.2 fun p _ => bodyTitle_ne_parameter p) h
    · cases h
    · split at h
      · cases h
      · exact bodyTitle_not_mem_block (by decide)
          (List.forall_mem_flatMap.2 fun r _ => bodyTitle_ne_response r) h
    · revert h
      decide

/-! ### A content that is not read -/

/-- **A content that is no mapping leaves its key.** A body with such a content is reported with no
media types, and its block is shown. Once the content is taken away, the operation is the same if
the body has another key; if it has none, the body is not reported any more and its block is gone,
and all the rest is the same. -/
theorem ofEntry?_of_unread {verb : Verb} (hverb : Verb.ofAnyCase? key = some verb)
    (hbody : entries.lookup "requestBody" = some (.mapping body))
    (hcontent : body.lookup "content" = some content) (hunread : content.entries? = none)
    (path : String) (security : Option Value) :
    ∃ op op', Operation.ofEntry? path key (.mapping entries) security = some op ∧
      Operation.ofEntry? path key
        (.mapping (Entries.put "requestBody" (.mapping (without "content" body)) entries))
        security = some op' ∧
      op.requestBody = some [] ∧
      op' = { op with requestBody := if HasOther body then some [] else none } ∧
      (op = op' ↔ HasOther body) ∧
      bodyTitle ∈ op.lines ∧ (bodyTitle ∈ op'.lines ↔ HasOther body) := by
  obtain ⟨op, hop⟩ : ∃ op, Operation.ofEntry? path key (.mapping entries) security = some op := by
    unfold Operation.ofEntry?
    rw [hverb]
    exact ⟨_, rfl⟩
  have hreported : op.requestBody = some [] :=
    (requestBody_eq_bodyOf hop hbody).trans (bodyOf_unread hcontent hunread)
  have hop' := ofEntry?_put_body path key entries security
    (.mapping (without "content" body))
  rw [hop, Option.map_some, bodyOf_without] at hop'
  refine ⟨op, _, hop, hop', hreported, rfl, ?_, ?_, ?_⟩
  · by_cases hother : HasOther body
    · rw [if_pos hother, ← hreported]
      exact iff_of_true rfl hother
    · rw [if_neg hother]
      refine iff_of_false (fun heq => ?_) hother
      have hnone := congrArg Operation.requestBody heq
      rw [hreported] at hnone
      cases hnone
  · rw [mem_lines_bodyTitle, hreported]
    exact Option.some_ne_none _
  · rw [mem_lines_bodyTitle]
    by_cases hother : HasOther body
    · simp [hother]
    · simp [hother]

/-- An operation with a body. -/
def withBody (body : List (String × Value)) : List (String × Value) :=
  [("summary", .text "a"), ("requestBody", .mapping body)]

/-- A body that says whether it is required is reported with and without its content. -/
theorem ofEntry?_of_unread_sample :
    Verb.ofAnyCase? "Put" = some .put ∧
      (withBody [("content", .text "b"), ("required", .bool true)]).lookup "requestBody" =
        some (.mapping [("content", .text "b"), ("required", .bool true)]) ∧
      HasOther [("content", .text "b"), ("required", .bool true)] ∧
      Operation.ofEntry? "/a" "Put"
          (.mapping (withBody [("content", .text "b"), ("required", .bool true)])) none =
        Operation.ofEntry? "/a" "Put" (.mapping (withBody [("required", .bool true)])) none := by
  have hverb : Verb.ofAnyCase? "Put" = some .put := by decide +kernel
  have hother : HasOther [("content", .text "b"), ("required", .bool true)] := by decide
  have hbody : (withBody [("content", .text "b"), ("required", .bool true)]).lookup "requestBody" =
      some (.mapping [("content", .text "b"), ("required", .bool true)]) := rfl
  obtain ⟨op, op', hop, hop', -, -, hsame, -⟩ := ofEntry?_of_unread hverb hbody rfl rfl "/a" none
  refine ⟨hverb, hbody, hother, ?_⟩
  rw [hop, hsame.2 hother]
  exact hop'.symm

/-- **A content that is no mapping does not count as absent.** Where it is the only key of a body,
the body is reported with it, and not reported without it. -/
theorem not_unread_absent :
    ¬ ∀ (path key : String) (verb : Verb) (security : Option Value)
      (entries body : List (String × Value)) (content : Value),
      Verb.ofAnyCase? key = some verb → entries.lookup "requestBody" = some (.mapping body) →
      body.lookup "content" = some content → content.entries? = none →
      Operation.ofEntry? path key (.mapping entries) security =
        Operation.ofEntry? path key
          (.mapping (Entries.put "requestBody" (.mapping (without "content" body)) entries))
          security := by
  intro h
  have hsame := h "/a" "put" .put none (withBody [("content", .text "b")]) _ _ (by decide +kernel)
    rfl rfl rfl
  revert hsame
  decide +kernel

end ApiReport.Spec
