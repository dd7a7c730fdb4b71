import ApiReport.Spec.Operation
import ApiReport.Proofs.Text.Order
import ApiReport.Proofs.Value.Proper
import ApiReport.Proofs.Verb

/-!
# The operations of a document

What a document says is read off its value here, without the tolerant records of the program: a
field is there or it is not, and what has another shape is not there. The operations reported are
then one for each site: each path, and each key of its item that spells a verb. Sites stand in
ascending order of path and key, so two spellings of one verb in one item are two operations.

Key definitions: `names`, `Requires`, `Labels`, `ReportsContent`, `ReportsParameter`,
`ReportsResponse`, `Site`, `Declares`, `Site.Before`, `Documents`.
Key theorem: `operations_documented`.
-/
namespace ApiReport.Spec

/-! ### What a value says -/

/-- The entries of a mapping whose keys are names; no other value has any. -/
def names : Value → List (String × Value)
  | .mapping entries => entries.filter fun e => e.1 != "__proto__"
  | _ => []

/-- A field, null if it is missing. -/
def fieldOf (v : Value) (key : String) : Value := (v.get? key).getD .null

/-- The elements of a list; any other value has none. -/
def elements : Value → List Value
  | .list items => items
  | _ => []

/-- A field is a text. -/
def Holds (v : Value) (key s : String) : Prop := v.get? key = some (.text s)

/-- A field is a text that is not empty. -/
def Says (v : Value) (key s : String) : Prop := Holds v key s ∧ s ≠ ""

/-- A value asks for something. Sets, ordered mappings and instants, which have no entries, ask for
nothing. -/
inductive Requires : Value → Prop
  | list (item : Value) (items : List Value) : Requires (.list (item :: items))
  | mapping (entry : String × Value) (entries : List (String × Value)) :
      Requires (.mapping (entry :: entries))
  | text {s : String} (h : s ≠ "") : Requires (.text s)
  | true : Requires (.bool true)
  | number {n : Number} (h : n.isTruthy = true) : Requires (.number n)
  | special {s : Special} (h : s.isObject = false) : Requires (.special s)

/-- What labels a schema: its reference, or else its type, or else the word for it. -/
inductive Labels (schema : Value) : String → Prop
  | reference {s : String} (h : Says schema "$ref" s) : Labels schema s
  | type {s : String} (href : ∀ t, ¬ Says schema "$ref" t) (h : Says schema "type" s) :
      Labels schema s
  | word (href : ∀ t, ¬ Says schema "$ref" t) (htype : ∀ t, ¬ Says schema "type" t) :
      Labels schema "schema"

/-- The content of a body: one entry for each media type, in the order of its mapping, which is
enumeration order. -/
structure ReportsContent (body : Value) (content : List ContentEntry) : Prop where
  entries : (names (fieldOf body "content")).Forall₂
    (fun media entry => entry.contentType = media.1 ∧
      Labels (fieldOf media.2 "schema") entry.schemaLabel) content
  ordered : (content.map ContentEntry.contentType).Pairwise Entries.MayPrecede

/-- What is reported of a parameter: a type that is not said is that of objects, and nothing but
true makes it required. -/
structure ReportsParameter (v : Value) (p : OperationParameter) : Prop where
  location : ∀ s, p.location = some s ↔ Holds v "in" s
  name : ∀ s, p.name = some s ↔ Holds v "name" s
  type : Says (fieldOf v "schema") "type" p.type ∨
    p.type = "object" ∧ ∀ t, ¬ Says (fieldOf v "schema") "type" t
  required : p.required = true ↔ v.get? "required" = some (.bool true)

/-- The response to a status as reported. -/
structure ReportsResponse (entry : String × Value) (r : OperationResponse) : Prop where
  status : r.status = entry.1
  description : Holds entry.2 "description" r.description ∨
    r.description = "" ∧ ∀ t, ¬ Holds entry.2 "description" t
  content : ReportsContent entry.2 r.content

/-! ### Sites -/

/-- A place where a document declares an operation. -/
structure Site where
  path : String
  key : String
  verb : Verb
  raw : Value

/-- A document declares an operation at a site: the path has an item, one of whose keys is the verb
but for the case of its letters. -/
def Declares (document : Value) (site : Site) : Prop :=
  ∃ item, (site.path, item) ∈ names (fieldOf document "paths") ∧ (site.key, site.raw) ∈ names item ∧
    Text.IsCaseVariant site.key site.verb.key

/-- The order of sites: by path, and for one path by key. -/
def Site.Before (a b : Site) : Prop :=
  Text.UnitsLT a.path b.path ∨ a.path = b.path ∧ Text.UnitsLT a.key b.key

/-- An operation reports what a document declares at a site. -/
structure Documents (document : Value) (site : Site) (op : Operation) : Prop where
  path : op.path = site.path
  verb : op.verb = site.verb
  method : op.verb.method = String.ofList (Text.uppercase site.key.toList)
  summary : ∀ s, op.summary = some s ↔ Says site.raw "summary" s
  description : ∀ s, op.description = some s ↔ Says site.raw "description" s
  tags : ∀ ts, ts ≠ [] → (op.tags = ts ↔ site.raw.get? "tags" = some (.list (ts.map Value.text)))
  authRequired : op.authRequired = true ↔
    Requires (fieldOf site.raw "security") ∨ Requires (fieldOf document "security")
  parameters : (elements (fieldOf site.raw "parameters")).Forall₂ ReportsParameter op.parameters
  noBody : op.requestBody = none ↔ names (fieldOf site.raw "requestBody") = []
  body : ∀ content, op.requestBody = some content →
    ReportsContent (fieldOf site.raw "requestBody") content
  responses : ∃ entries : List (String × Value), entries.Perm (names (fieldOf site.raw "responses")) ∧
    entries.Pairwise (fun a b => Text.UnitsLT a.1 b.1) ∧ entries.Forall₂ ReportsResponse op.responses

/-! ### Fields -/

theorem textField?_eq_some {v : Value} {key s : String} :
    textField? key v = some s ↔ Holds v key s := by
  unfold textField? Holds
  rw [Option.bind_eq_some_iff]
  constructor
  · rintro ⟨w, hw, hs⟩
    cases w <;> cases hs
    exact hw
  · exact fun h => ⟨_, h, rfl⟩

theorem nonEmpty?_eq_some {o : Option String} {s : String} :
    nonEmpty? o = some s ↔ o = some s ∧ s ≠ "" := by
  cases o with
  | none => simp [nonEmpty?]
  | some t =>
    by_cases ht : t = ""
    · subst ht
      simp [nonEmpty?]
    · have hkeep : nonEmpty? (some t) = some t := if_neg ht
      rw [hkeep]
      exact ⟨fun h => ⟨h, Option.some.inj h ▸ ht⟩, And.left⟩

theorem nonEmpty?_textField?_eq_some {v : Value} {key s : String} :
    nonEmpty? (textField? key v) = some s ↔ Says v key s := by
  rw [nonEmpty?_eq_some, textField?_eq_some, Says]

/-- A text field with a default in its place. -/
theorem getD_textField? (v : Value) (key default : String) :
    Holds v key ((textField? key v).getD default) ∨
      (textField? key v).getD default = default ∧ ∀ t, ¬ Holds v key t := by
  cases h : textField? key v with
  | some s => exact .inl (textField?_eq_some.1 h)
  | none =>
    refine .inr ⟨rfl, fun t ht => ?_⟩
    rw [textField?_eq_some.2 ht] at h
    cases h

/-- A text field that is not empty, with a default in its place. -/
theorem getD_nonEmpty?_textField? (v : Value) (key default : String) :
    Says v key ((nonEmpty? (textField? key v)).getD default) ∨
      (nonEmpty? (textField? key v)).getD default = default ∧ ∀ t, ¬ Says v key t := by
  cases h : nonEmpty? (textField? key v) with
  | some s => exact .inl (nonEmpty?_textField?_eq_some.1 h)
  | none =>
    refine .inr ⟨rfl, fun t ht => ?_⟩
    rw [nonEmpty?_textField?_eq_some.2 ht] at h
    cases h

theorem getD_namesOf? {α : Type} (read : Value → α) (v : Value) (key : String) :
    ((v.get? key).bind (namesOf? read)).getD [] =
      (names (fieldOf v key)).map fun e => (e.1, read e.2) := by
  unfold fieldOf
  cases v.get? key with
  | none => rfl
  | some w => cases w <;> rfl

theorem getD_parametersOf? (v : Value) (key : String) :
    ((v.get? key).bind parametersOf?).getD [] =
      (elements (fieldOf v key)).map Parameter.ofValue := by
  unfold fieldOf
  cases v.get? key with
  | none => rfl
  | some w => cases w <;> rfl

theorem mapM_textOf?_eq_some : ∀ {items : List Value} {ts : List String},
    items.mapM textOf? = some ts ↔ items = ts.map Value.text
  | [], ts => by
    cases ts <;> simp
  | item :: items, ts => by
    rw [List.mapM_cons]
    cases item with
    | text s =>
      have htext : textOf? (.text s) = some s := rfl
      simp only [htext, Option.bind_eq_bind, Option.bind_some, Option.bind_eq_some_iff,
        mapM_textOf?_eq_some]
      constructor
      · rintro ⟨ss, rfl, h⟩
        rw [← Option.some.inj h, List.map_cons]
      · intro h
        cases ts with
        | nil => cases h
        | cons t ts =>
          obtain ⟨hs, hitems⟩ := List.cons.inj h
          rw [Value.text.inj hs]
          exact ⟨ts, hitems, rfl⟩
    | _ => cases ts <;> simp [textOf?]

theorem textsOf?_eq_some {v : Value} {ts : List String} :
    textsOf? v = some ts ↔ v = .list (ts.map Value.text) := by
  cases v with
  | list items =>
    rw [textsOf?, mapM_textOf?_eq_some, Value.list.injEq]
  | _ => simp [textsOf?]

theorem getD_textsOf? {v : Value} {key : String} {ts : List String} (hts : ts ≠ []) :
    ((v.get? key).bind textsOf?).getD [] = ts ↔ v.get? key = some (.list (ts.map Value.text)) := by
  have hbind : (v.get? key).bind textsOf? = some ts ↔
      v.get? key = some (.list (ts.map Value.text)) := by
    rw [Option.bind_eq_some_iff]
    constructor
    · rintro ⟨w, hw, h⟩
      rw [hw, textsOf?_eq_some.1 h]
    · exact fun h => ⟨_, h, textsOf?_eq_some.2 rfl⟩
  rw [← hbind]
  cases (v.get? key).bind textsOf? with
  | none => simp [Ne.symm hts]
  | some us => simp

/-! ### Labels and requirements -/

theorem labels_ofValue (schema : Value) : Labels schema (Schema.ofValue schema).label := by
  unfold Schema.label Schema.ofValue
  dsimp only
  cases href : nonEmpty? (textField? "$ref" schema) with
  | some s => exact .reference (nonEmpty?_textField?_eq_some.1 href)
  | none =>
    have hno : ∀ t, ¬ Says schema "$ref" t := fun t ht => by
      rw [nonEmpty?_textField?_eq_some.2 ht] at href
      cases href
    rcases getD_nonEmpty?_textField? schema "type" "schema" with htype | ⟨hword, htype⟩
    · exact .type hno htype
    · have := Labels.word hno htype
      rwa [← hword] at this

theorem labels_schemaLabel (v : Value) :
    Labels (fieldOf v "schema") (schemaLabel ((v.get? "schema").map Schema.ofValue)) := by
  unfold fieldOf
  cases v.get? "schema" with
  | none => exact labels_ofValue .null
  | some w => exact labels_ofValue w

theorem hasRequirement_iff {v : Value} {key : String} :
    hasRequirement (v.get? key) = true ↔ Requires (fieldOf v key) := by
  unfold fieldOf
  cases v.get? key with
  | none => exact ⟨fun h => (Bool.false_ne_true h).elim, nofun⟩
  | some w =>
    rw [Option.getD_some]
    constructor
    · intro h
      cases w with
      | null => cases h
      | bool b =>
        cases b with
        | false => cases h
        | true => exact .true
      | number n => exact .number h
      | text s => exact .text (by simpa [hasRequirement, Value.isTruthy] using h)
      | list items =>
        cases items with
        | nil => cases h
        | cons item items => exact .list item items
      | mapping entries =>
        cases entries with
        | nil => cases h
        | cons entry entries => exact .mapping entry entries
      | special s => exact .special (by simpa [hasRequirement] using h)
    · intro h
      cases h with
      | list => rfl
      | mapping => rfl
      | text h => simpa [hasRequirement, Value.isTruthy] using h
      | true => rfl
      | number h => exact h
      | special h => simpa [hasRequirement] using h

/-! ### Parts of proper values -/

/-- Names are distinct and in enumeration order, and what they name is as proper as their mapping.
-/
theorem IsProper.names {v : Value} (hv : v.IsProper) :
    Entries.IsProper (names v) ∧ ∀ e ∈ names v, e.2.IsProper := by
  cases hv with
  | mapping hentries h =>
    exact ⟨hentries.filter _, fun e he => h e (List.mem_filter.1 he).1⟩
  | _ => exact ⟨⟨List.nodup_nil, .nil⟩, fun e he => (List.not_mem_nil he).elim⟩

theorem IsProper.fieldOf {v : Value} (hv : v.IsProper) (key : String) :
    (fieldOf v key).IsProper := by
  unfold Spec.fieldOf
  cases h : v.get? key with
  | none => exact .null
  | some w => exact hv.get? h

/-! ### Parts of an operation -/

theorem reportsContent {body : Value} (h : body.IsProper) :
    ReportsContent body (contentEntries (contentField? body)) := by
  have hentries : contentEntries (contentField? body) =
      (names (fieldOf body "content")).map fun media =>
        ⟨media.1, schemaLabel ((media.2.get? "schema").map Schema.ofValue)⟩ := by
    unfold contentEntries contentField?
    rw [getD_namesOf?, List.map_map]
    rfl
  rw [hentries]
  constructor
  · rw [List.forall₂_map_right_iff]
    exact List.forall₂_same.2 fun media _ => ⟨rfl, labels_schemaLabel media.2⟩
  · rw [List.map_map]
    exact (IsProper.names (IsProper.fieldOf h "content")).1.ordered

theorem reportsParameter (v : Value) : ReportsParameter v (Parameter.ofValue v).reported where
  location _ := textField?_eq_some
  name _ := textField?_eq_some
  type := by
    have htype : ((v.get? "schema").map Schema.ofValue).bind Schema.type =
        textField? "type" (fieldOf v "schema") := by
      unfold fieldOf
      cases v.get? "schema" <;> rfl
    unfold Parameter.reported Parameter.ofValue
    dsimp only
    rw [htype]
    exact getD_nonEmpty?_textField? _ _ _
  required := by
    unfold Parameter.reported Parameter.ofValue
    dsimp only
    cases v.get? "required" with
    | none => simp
    | some w => cases w <;> simp [boolOf?]

theorem reportsResponse {e : String × Value} (h : e.2.IsProper) :
    ReportsResponse e ⟨e.1, (Response.ofValue e.2).description.getD "",
      contentEntries (Response.ofValue e.2).content⟩ where
  status := rfl
  description := getD_textField? _ _ _
  content := reportsContent h

theorem body_reported (v : Value) (key : String) :
    ((v.get? key).bind RequestBody.ofValue?).bind RequestBody.reported =
      if names (fieldOf v key) = [] then none
      else some (contentEntries (contentField? (fieldOf v key))) := by
  unfold fieldOf
  cases v.get? key with
  | none => rfl
  | some w =>
    cases w with
    | mapping entries =>
      have hempty : (named entries).isEmpty = true ↔ names (.mapping entries) = [] :=
        List.isEmpty_iff
      simp only [Option.bind_some, RequestBody.ofValue?, Value.entries?, Option.map_some,
        RequestBody.reported, hempty, Option.getD_some]
    | _ => rfl

theorem reportsResponses {v : Value} (hv : v.IsProper) (key : String) :
    ∃ entries : List (String × Value), entries.Perm (names (fieldOf v key)) ∧
      entries.Pairwise (fun a b => Text.UnitsLT a.1 b.1) ∧
      entries.Forall₂ ReportsResponse
        (reportedResponses (((v.get? key).bind (namesOf? Response.ofValue)).getD [])) := by
  obtain ⟨hnames, hvalues⟩ := IsProper.names (IsProper.fieldOf hv key)
  refine ⟨Text.sortByKey Prod.fst (names (fieldOf v key)), Text.sortByKey_perm _ _,
    Text.sortByKey_pairwise hnames.distinct, ?_⟩
  rw [getD_namesOf?, reportedResponses, Text.sortByKey_map,
    List.map_map, List.forall₂_map_right_iff]
  refine List.forall₂_same.2 fun e he => reportsResponse (hvalues e ?_)
  exact (Text.sortByKey_perm _ _).mem_iff.1 he

/-! ### Operations and sites -/

/-- What an entry of a path item that spells a verb is reported as. -/
theorem documents_of_entry {document : Value} {site : Site} {op : Operation}
    (hraw : site.raw.IsProper) (hverb : Verb.ofAnyCase? site.key = some site.verb)
    (h : Operation.ofEntry? site.path site.key site.raw (document.get? "security") = some op) :
    Documents document site op := by
  unfold Operation.ofEntry? at h
  rw [hverb] at h
  obtain rfl := Option.some.inj h
  have hbody := body_reported site.raw "requestBody"
  exact {
    path := rfl
    verb := rfl
    method := (Verb.uppercase_of_isCaseVariant (Verb.ofAnyCase?_eq_some_iff.1 hverb)).symm
    summary := fun _ => nonEmpty?_textField?_eq_some
    description := fun _ => nonEmpty?_textField?_eq_some
    tags := fun _ hts => getD_textsOf? hts
    authRequired := by
      rw [← hasRequirement_iff, ← hasRequirement_iff]
      show hasRequirement (if hasRequirement (site.raw.get? "security") then _ else _) = true ↔ _
      split
      · next hown => simp only [OperationObject.ofValue, hown, true_or]
      · next hown => simp only [hown, Bool.false_eq_true, false_or]
    parameters := by
      show List.Forall₂ _ _ ((((site.raw.get? "parameters").bind parametersOf?).getD []).map _)
      rw [getD_parametersOf?, List.map_map, List.forall₂_map_right_iff]
      exact List.forall₂_same.2 fun v _ => reportsParameter v
    noBody := by
      show ((site.raw.get? "requestBody").bind RequestBody.ofValue?).bind _ = none ↔ _
      rw [hbody]
      split
      · next hempty => exact ⟨fun _ => hempty, fun _ => rfl⟩
      · next hempty => exact ⟨nofun, fun h => (hempty h).elim⟩
    body := fun content hcontent => by
      change ((site.raw.get? "requestBody").bind RequestBody.ofValue?).bind _ = some content
        at hcontent
      rw [hbody] at hcontent
      split at hcontent
      · cases hcontent
      · rw [← Option.some.inj hcontent]
        exact reportsContent (IsProper.fieldOf hraw "requestBody")
    responses := reportsResponses hraw "responses" }

/-- The site of an entry of a path item, if its key spells a verb. -/
def siteOf? (path : String) (e : String × Value) : Option Site :=
  (Verb.ofAnyCase? e.1).map fun verb => ⟨path, e.1, verb, e.2⟩

theorem siteOf?_eq_some {path : String} {e : String × Value} {site : Site} :
    siteOf? path e = some site ↔
      site.path = path ∧ (site.key, site.raw) = e ∧ Verb.ofAnyCase? site.key = some site.verb := by
  unfold siteOf?
  rw [Option.map_eq_some_iff]
  constructor
  · rintro ⟨verb, hverb, rfl⟩
    exact ⟨rfl, rfl, hverb⟩
  · rintro ⟨rfl, rfl, hverb⟩
    exact ⟨site.verb, hverb, rfl⟩

/-- The sites of a document in the order of their operations. -/
def sites (document : Value) : List Site :=
  (Text.sortByKey Prod.fst (names (fieldOf document "paths"))).flatMap fun item =>
    (Text.sortByKey Prod.fst (names item.2)).filterMap (siteOf? item.1)

theorem mem_sites {document : Value} {site : Site} :
    site ∈ sites document ↔ Declares document site := by
  unfold sites Declares
  simp only [List.mem_flatMap, List.mem_filterMap, (Text.sortByKey_perm _ _).mem_iff,
    siteOf?_eq_some, ← Verb.ofAnyCase?_eq_some_iff]
  constructor
  · rintro ⟨⟨path, item⟩, hitem, e, he, rfl, rfl, hverb⟩
    exact ⟨item, hitem, he, hverb⟩
  · rintro ⟨item, hitem, he, hverb⟩
    exact ⟨_, hitem, _, he, rfl, rfl, hverb⟩

/-- Keys of one item are distinct, so its sites are strictly ascending; so are the paths. -/
theorem sites_pairwise {document : Value} (h : document.IsProper) :
    (sites document).Pairwise Site.Before := by
  obtain ⟨hpaths, hitems⟩ := IsProper.names (IsProper.fieldOf h "paths")
  unfold sites
  refine List.pairwise_flatMap.2 ⟨fun item hitem => ?_, ?_⟩
  · have hitem := hitems item ((Text.sortByKey_perm _ _).mem_iff.1 hitem)
    refine List.pairwise_filterMap.2 ((Text.sortByKey_pairwise (IsProper.names hitem).1.distinct).imp ?_)
    intro e e' hlt a ha b hb
    obtain ⟨hpath, rfl, -⟩ := siteOf?_eq_some.1 ha
    obtain ⟨hpath', rfl, -⟩ := siteOf?_eq_some.1 hb
    exact .inr ⟨hpath.trans hpath'.symm, hlt⟩
  · refine (Text.sortByKey_pairwise hpaths.distinct).imp ?_
    intro item item' hlt a ha b hb
    obtain ⟨e, -, ha⟩ := List.mem_filterMap.1 ha
    obtain ⟨e', -, hb⟩ := List.mem_filterMap.1 hb
    obtain ⟨hpath, -, -⟩ := siteOf?_eq_some.1 ha
    obtain ⟨hpath', -, -⟩ := siteOf?_eq_some.1 hb
    rw [← hpath, ← hpath'] at hlt
    exact .inl hlt

theorem operations_eq {v : Value} {d : Document} (h : Document.ofValue? v = some d) :
    operations d = (Text.sortByKey Prod.fst (names (fieldOf v "paths"))).flatMap fun item =>
      (Text.sortByKey Prod.fst (names item.2)).filterMap fun e =>
        Operation.ofEntry? item.1 e.1 e.2 (v.get? "security") := by
  obtain ⟨_, -, rfl⟩ := Option.map_eq_some_iff.1 h
  have hitem : ∀ w : Value, pathItem w = names w := by
    intro w
    cases w <;> rfl
  unfold operations
  dsimp only
  rw [getD_namesOf?, Text.sortByKey_map, List.flatMap_map]
  simp only [hitem]

theorem forall₂_sites {v : Value} (hv : v.IsProper) {d : Document}
    (h : Document.ofValue? v = some d) : (sites v).Forall₂ (Documents v) (operations d) := by
  obtain ⟨-, hitems⟩ := IsProper.names (IsProper.fieldOf hv "paths")
  have hself : ∀ xs : List (String × Value),
      (Text.sortByKey Prod.fst xs).Forall₂ (fun a b => a = b ∧ a ∈ xs)
        (Text.sortByKey Prod.fst xs) :=
    fun xs => List.forall₂_same.2 fun x hx => ⟨rfl, (Text.sortByKey_perm _ _).mem_iff.1 hx⟩
  rw [operations_eq h]
  refine List.rel_flatMap (hself _) ?_
  rintro item _ ⟨rfl, hitem⟩
  refine List.rel_filterMap ?_ (hself _)
  rintro e _ ⟨rfl, he⟩
  have hraw := (IsProper.names (hitems item hitem)).2 e he
  cases hverb : Verb.ofAnyCase? e.1 with
  | none =>
    dsimp only
    rw [siteOf?, Operation.ofEntry?, hverb]
    exact .none
  | some verb =>
    dsimp only
    rw [siteOf?, hverb]
    have hentry : ∃ op, Operation.ofEntry? item.1 e.1 e.2 (v.get? "security") = some op := by
      rw [Operation.ofEntry?, hverb]
      exact ⟨_, rfl⟩
    obtain ⟨op, hop⟩ := hentry
    rw [hop]
    exact .some (documents_of_entry hraw hverb hop)

/-- **The operations reported are those declared.** The sites at which a document declares an
operation, in strictly ascending order of path and key, are documented one by one. -/
theorem operations_documented {v : Value} (hv : v.IsProper) {d : Document}
    (h : Document.ofValue? v = some d) :
    ∃ sites : List Site, sites.Pairwise Site.Before ∧
      (∀ site, site ∈ sites ↔ Declares v site) ∧
      sites.Forall₂ (Documents v) (operations d) :=
  ⟨sites v, sites_pairwise hv, fun _ => mem_sites, forall₂_sites hv h⟩

/-- Two spellings of one verb in an item are two operations. -/
example : (operations ⟨none, some [("/a", [("get", .null), ("x", .null), ("GET", .null)])]⟩).map
    (fun op => (op.path, op.verb)) = [("/a", .get), ("/a", .get)] := by
  cbv

/-- An item with two spellings of one verb. -/
def twiceGet : List Char :=
  "\x7b\"security\":[],\"paths\":\x7b\"/a\":\x7b\"get\":null,\"GET\":\x7b\"security\":[1]\x7d\x7d\x7d\x7d".toList

theorem operations_documented_sample :
    ∃ v d, Json.read twiceGet = .ok v ∧ v.IsProper ∧ Document.ofValue? v = some d ∧
      ∃ sites : List Site, sites.Pairwise Site.Before ∧
        (∀ site, site ∈ sites ↔ Declares v site) ∧
        sites.Forall₂ (Documents v) (operations d) := by
  have hread : ((Json.read twiceGet).toOption.bind Document.ofValue?).isSome = true := by
    decide +kernel
  cases hv : Json.read twiceGet with
  | error rest =>
    rw [hv] at hread
    cases hread
  | ok v =>
    rw [hv] at hread
    obtain ⟨d, hd⟩ := Option.isSome_iff_exists.1 hread
    have hproper := Json.isProper_of_read hv
    exact ⟨v, d, rfl, hproper, hd, operations_documented hproper hd⟩

end ApiReport.Spec
