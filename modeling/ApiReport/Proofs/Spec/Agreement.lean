import ApiReport.Proofs.Lookup
import ApiReport.Proofs.Spec.Operations

/-!
# Documents that agree

What the operations of a document depend on is said here once, part by part: which fields of a part
are looked at and what they are read as, which mappings are taken as tables of names, and where the
order of names counts. A relation between values that respects all of this, as a bisimulation
respects steps, relates only documents with the same operations.

Key definitions: `Part`, `Part.fields`, `Part.member?`, `Part.field?`, `namesOf`, `IsAgreement`.
Key theorem: `IsAgreement.operations_eq`.
-/
namespace ApiReport.Spec

/-! ### The parts of a document -/

/-- What a value in a document is read as. -/
inductive Part where
  | document
  | paths
  | item
  | operation
  | parameters
  | parameter
  | body
  | responses
  | response
  | content
  | mediaType
  | schema
  | text
  | truth
  | texts
  /-- A value of whatever type. -/
  | any
  deriving DecidableEq, Repr

namespace Part

/-- The fields of a part, and what each is read as. -/
def fields : Part → List (String × Part)
  | document => [("security", any), ("paths", paths)]
  | operation =>
    [("summary", text), ("description", text), ("tags", texts), ("security", any),
      ("parameters", parameters), ("requestBody", body), ("responses", responses)]
  | parameter => [("in", text), ("name", text), ("required", truth), ("schema", schema)]
  | body => [("content", content)]
  | response => [("description", text), ("content", content)]
  | mediaType => [("schema", schema)]
  | schema => [("$ref", text), ("type", text)]
  | _ => []

/-- What an entry of a table is read as: paths, responses and media types have names of any kind,
the operations of a path item have verbs. -/
def member? : Part → String → Option Part
  | paths, _ => some item
  | item, key => (Verb.ofAnyCase? key).map fun _ => operation
  | responses, _ => some response
  | content, _ => some mediaType
  | _, _ => none

/-- What the value of a key is read as, if it is looked at. -/
def field? (p : Part) (key : String) : Option Part := p.member? key <|> p.fields.lookup key

end Part

/-- The names of a mapping, in its order. -/
def namesOf (v : Value) : List String := (names v).map Prod.fst

/-- A relation that every look at a part respects: the values of its fields and the elements of its
list are related as what they are read as, and what is read off them directly is the same. The order
of names counts in content mappings only. -/
structure IsAgreement (R : Part → Value → Value → Prop) : Prop where
  proper : ∀ {p v w}, R p v w → v.IsProper ∧ w.IsProper
  field : ∀ {p v w key q}, R p v w → p.field? key = some q →
    R q (fieldOf v key) (fieldOf w key)
  elements : ∀ {v w}, R .parameters v w → (elements v).Forall₂ (R .parameter) (elements w)
  names : ∀ {p v w}, R p v w → p ∈ [Part.paths, .item, .body, .responses] →
    (namesOf v).Perm (namesOf w)
  contentNames : ∀ {v w}, R .content v w → namesOf v = namesOf w
  text : ∀ {v w}, R .text v w → textOf? v = textOf? w
  truth : ∀ {v w}, R .truth v w → boolOf? v = boolOf? w
  texts : ∀ {v w}, R .texts v w → textsOf? v = textsOf? w
  requirement : ∀ {v w}, R .any v w → hasRequirement (some v) = hasRequirement (some w)

/-! ### Fields as they are read -/

theorem textField?_eq (v : Value) (key : String) : textField? key v = textOf? (fieldOf v key) := by
  unfold textField? fieldOf
  cases v.get? key <;> rfl

theorem bind_boolOf?_eq (v : Value) (key : String) :
    (v.get? key).bind boolOf? = boolOf? (fieldOf v key) := by
  unfold fieldOf
  cases v.get? key <;> rfl

theorem bind_textsOf?_eq (v : Value) (key : String) :
    (v.get? key).bind textsOf? = textsOf? (fieldOf v key) := by
  unfold fieldOf
  cases v.get? key <;> rfl

theorem hasRequirement_ite (own other : Option Value) :
    hasRequirement (if hasRequirement own then own else other) =
      (hasRequirement own || hasRequirement other) := by
  cases h : hasRequirement own with
  | true => rw [if_pos rfl, h, Bool.true_or]
  | false => rw [if_neg Bool.false_ne_true, Bool.false_or]

theorem hasRequirement_get? (v : Value) (key : String) :
    hasRequirement (v.get? key) = hasRequirement (some (fieldOf v key)) := by
  unfold fieldOf
  cases v.get? key <;> rfl

/-- The schema of a part that has none says what the schema of nothing says. -/
theorem schemaLabel_eq (v : Value) :
    schemaLabel ((v.get? "schema").map Schema.ofValue) =
      (Schema.ofValue (fieldOf v "schema")).label := by
  unfold fieldOf
  cases v.get? "schema" <;> rfl

theorem bind_type_eq (v : Value) :
    ((v.get? "schema").map Schema.ofValue).bind Schema.type =
      textOf? (fieldOf (fieldOf v "schema") "type") := by
  rw [← textField?_eq]
  unfold fieldOf
  cases v.get? "schema" <;> rfl

theorem contentEntries_eq (v : Value) :
    contentEntries (contentField? v) =
      (names (fieldOf v "content")).map fun media =>
        ⟨media.1, (Schema.ofValue (fieldOf media.2 "schema")).label⟩ := by
  unfold contentEntries contentField?
  rw [getD_namesOf?, List.map_map]
  refine List.map_congr_left fun media _ => ?_
  exact congrArg (ContentEntry.mk media.1) (schemaLabel_eq media.2)

theorem namesOf_mapping (entries : List (String × Value)) :
    namesOf (.mapping entries) = (entries.map Prod.fst).filter (· != "__proto__") := by
  rw [namesOf, names, List.filter_map]
  rfl

/-- What a name stands for is the field of that name. -/
theorem fieldOf_of_mem_names {v x : Value} {key : String} (hv : v.IsProper)
    (h : (key, x) ∈ names v) : fieldOf v key = x := by
  cases hv with
  | mapping hentries _ =>
    have hmem := (List.mem_filter.1 h).1
    have hlookup := lookup_of_mem hentries.distinct hmem
    rw [fieldOf, Value.get?, hlookup]
    rfl
  | _ => exact (List.not_mem_nil h).elim

theorem IsProper.elements {v : Value} (hv : v.IsProper) : ∀ x ∈ elements v, x.IsProper := by
  cases hv with
  | list h => exact h
  | _ => exact fun x hx => (List.not_mem_nil hx).elim

/-- Lists of proper values that are related element by element. -/
theorem forall₂_proper {R : Value → Value → Prop} {xs ys : List Value} (h : xs.Forall₂ R ys)
    (hxs : ∀ x ∈ xs, x.IsProper) (hys : ∀ y ∈ ys, y.IsProper) :
    xs.Forall₂ (fun x y => R x y ∧ x.IsProper ∧ y.IsProper) ys := by
  obtain ⟨hlength, hzip⟩ := List.forall₂_iff_zip.1 h
  refine List.forall₂_iff_zip.2 ⟨hlength, fun {x y} hxy => ⟨hzip hxy, ?_⟩⟩
  obtain ⟨hx, hy⟩ := List.of_mem_zip hxy
  exact ⟨hxs x hx, hys y hy⟩

/-- Two lists of entries with the same keys are related entry by entry, if entries of the same key
are related. -/
theorem forall₂_of_map_fst {R : String → Value → Value → Prop} :
    ∀ {xs ys : List (String × Value)}, xs.map Prod.fst = ys.map Prod.fst →
      (∀ key v w, (key, v) ∈ xs → (key, w) ∈ ys → R key v w) →
      xs.Forall₂ (fun x y => x.1 = y.1 ∧ R x.1 x.2 y.2) ys
  | [], [], _, _ => .nil
  | [], _ :: _, h, _ => by cases h
  | _ :: _, [], h, _ => by cases h
  | (k, v) :: xs, (k', w) :: ys, h, hR => by
    rw [List.map_cons, List.map_cons] at h
    obtain ⟨hk, hrest⟩ := List.cons.inj h
    have hk : k = k' := hk
    subst hk
    refine .cons ⟨rfl, hR k v w List.mem_cons_self List.mem_cons_self⟩ ?_
    exact forall₂_of_map_fst hrest fun key v w hv hw =>
      hR key v w (List.mem_cons_of_mem _ hv) (List.mem_cons_of_mem _ hw)

/-! ### What related parts are reported as -/

namespace IsAgreement

variable {R : Part → Value → Value → Prop} {p : Part} {v w : Value} {key : String}

theorem textField? (h : IsAgreement R) (hR : R p v w) (hkey : p.field? key = some .text) :
    Spec.textField? key v = Spec.textField? key w := by
  rw [textField?_eq, textField?_eq]
  exact h.text (h.field hR hkey)

/-- The entries of related tables are related name by name, in the order of names. -/
theorem forall₂_sorted (h : IsAgreement R) (hR : R p v w)
    (hp : p ∈ [Part.paths, .item, .body, .responses]) :
    (Text.sortByKey Prod.fst (Spec.names v)).Forall₂
      (fun x y => x.1 = y.1 ∧ ∀ q, p.member? x.1 = some q → R q x.2 y.2)
      (Text.sortByKey Prod.fst (Spec.names w)) := by
  obtain ⟨hv, hw⟩ := h.proper hR
  refine forall₂_of_map_fst (R := fun key x y => ∀ q, p.member? key = some q → R q x y)
    (Text.map_fst_sortByKey (h.names hR hp)) ?_
  intro key x y hx hy q hq
  have hx := fieldOf_of_mem_names hv ((Text.sortByKey_perm _ _).mem_iff.1 hx)
  have hy := fieldOf_of_mem_names hw ((Text.sortByKey_perm _ _).mem_iff.1 hy)
  have hfield : p.field? key = some q := by rw [Part.field?, hq]; rfl
  have := h.field hR hfield
  rwa [hx, hy] at this

/-- The media types of related contents are related one by one, in the order of the contents. -/
theorem forall₂_content (h : IsAgreement R) (hR : R .content v w) :
    (Spec.names v).Forall₂ (fun x y => x.1 = y.1 ∧ R .mediaType x.2 y.2) (Spec.names w) := by
  obtain ⟨hv, hw⟩ := h.proper hR
  refine forall₂_of_map_fst (R := fun _ => R .mediaType) (h.contentNames hR) ?_
  intro key x y hx hy
  have hfield : R .mediaType (fieldOf v key) (fieldOf w key) := h.field hR rfl
  rwa [fieldOf_of_mem_names hv hx, fieldOf_of_mem_names hw hy] at hfield

theorem schema_label (h : IsAgreement R) (hR : R .schema v w) :
    (Schema.ofValue v).label = (Schema.ofValue w).label := by
  unfold Schema.label Schema.ofValue
  dsimp only
  rw [h.textField? hR rfl, h.textField? hR rfl]

theorem contentEntries (h : IsAgreement R) (hR : R p v w)
    (hp : p.field? "content" = some .content) :
    Spec.contentEntries (contentField? v) = Spec.contentEntries (contentField? w) := by
  have hcontent := h.forall₂_content (h.field hR hp)
  rw [contentEntries_eq, contentEntries_eq]
  refine map_eq_of_forall₂ ?_ hcontent
  rintro ⟨name, x⟩ ⟨_, y⟩ ⟨rfl, hxy⟩
  have hschema : R .schema (fieldOf x "schema") (fieldOf y "schema") := h.field hxy rfl
  have hlabel := h.schema_label hschema
  exact congrArg (ContentEntry.mk name) hlabel

theorem parameter_reported (h : IsAgreement R) (hR : R .parameter v w) :
    (Parameter.ofValue v).reported = (Parameter.ofValue w).reported := by
  have hin : Spec.textField? "in" v = Spec.textField? "in" w := h.textField? hR rfl
  have hname : Spec.textField? "name" v = Spec.textField? "name" w := h.textField? hR rfl
  have hrequired : (v.get? "required").bind boolOf? = (w.get? "required").bind boolOf? := by
    rw [bind_boolOf?_eq, bind_boolOf?_eq]
    exact h.truth (h.field hR rfl)
  have hschema : R .schema (fieldOf v "schema") (fieldOf w "schema") := h.field hR rfl
  have htype : ((v.get? "schema").map Schema.ofValue).bind Schema.type =
      ((w.get? "schema").map Schema.ofValue).bind Schema.type := by
    rw [bind_type_eq, bind_type_eq]
    exact h.text (h.field hschema rfl)
  unfold Parameter.reported Parameter.ofValue
  dsimp only
  rw [hin, hname, hrequired, htype]

theorem response_reported (h : IsAgreement R) (hR : R .response v w) :
    (Response.ofValue v).description.getD "" = (Response.ofValue w).description.getD "" ∧
      Spec.contentEntries (Response.ofValue v).content =
        Spec.contentEntries (Response.ofValue w).content := by
  have hdescription : Spec.textField? "description" v = Spec.textField? "description" w :=
    h.textField? hR rfl
  exact ⟨congrArg (Option.getD · "") hdescription, h.contentEntries hR rfl⟩

theorem responses_reported (h : IsAgreement R) (hR : R .operation v w) :
    reportedResponses (((v.get? "responses").bind (namesOf? Response.ofValue)).getD []) =
      reportedResponses (((w.get? "responses").bind (namesOf? Response.ofValue)).getD []) := by
  have hresponses : R .responses (fieldOf v "responses") (fieldOf w "responses") := h.field hR rfl
  have hsorted := h.forall₂_sorted hresponses (by decide)
  unfold reportedResponses
  rw [getD_namesOf?, getD_namesOf?, Text.sortByKey_map, Text.sortByKey_map, List.map_map,
    List.map_map]
  refine map_eq_of_forall₂ ?_ hsorted
  rintro ⟨status, x⟩ ⟨_, y⟩ ⟨rfl, hxy⟩
  obtain ⟨hdescription, hcontent⟩ := h.response_reported (hxy .response rfl)
  exact congrArg₂ (OperationResponse.mk status) hdescription hcontent

theorem parameters_reported (h : IsAgreement R) (hR : R .operation v w) :
    (((v.get? "parameters").bind parametersOf?).getD []).map Parameter.reported =
      (((w.get? "parameters").bind parametersOf?).getD []).map Parameter.reported := by
  have hlist : R .parameters (fieldOf v "parameters") (fieldOf w "parameters") := h.field hR rfl
  rw [getD_parametersOf?, getD_parametersOf?, List.map_map, List.map_map]
  exact map_eq_of_forall₂ (R := R .parameter) (fun _ _ hxy => h.parameter_reported hxy)
    (h.elements hlist)

/-- The body is there or not by its names, in both documents. -/
theorem body_reported (h : IsAgreement R) (hR : R .operation v w) :
    ((v.get? "requestBody").bind RequestBody.ofValue?).bind RequestBody.reported =
      ((w.get? "requestBody").bind RequestBody.ofValue?).bind RequestBody.reported := by
  have hbody : R .body (fieldOf v "requestBody") (fieldOf w "requestBody") := h.field hR rfl
  have hempty : Spec.names (fieldOf v "requestBody") = [] ↔
      Spec.names (fieldOf w "requestBody") = [] := by
    have hnames := (h.names hbody (by decide)).length_eq
    rw [namesOf, namesOf, List.length_map, List.length_map] at hnames
    rw [← List.length_eq_zero_iff, ← List.length_eq_zero_iff, hnames]
  rw [Spec.body_reported, Spec.body_reported, h.contentEntries hbody rfl]
  simp only [hempty]

/-! ### Related documents -/

theorem ofEntry? (h : IsAgreement R) (hR : R .operation v w) {security security' : Option Value}
    (hsecurity : hasRequirement security = hasRequirement security') (path key : String) :
    Operation.ofEntry? path key v security = Operation.ofEntry? path key w security' := by
  have hsummary : Spec.textField? "summary" v = Spec.textField? "summary" w := h.textField? hR rfl
  have hdescription : Spec.textField? "description" v = Spec.textField? "description" w :=
    h.textField? hR rfl
  have htags : (v.get? "tags").bind textsOf? = (w.get? "tags").bind textsOf? := by
    rw [bind_textsOf?_eq, bind_textsOf?_eq]
    exact h.texts (h.field hR rfl)
  have hown : hasRequirement (v.get? "security") = hasRequirement (w.get? "security") := by
    rw [hasRequirement_get?, hasRequirement_get?]
    exact h.requirement (h.field hR rfl)
  have hparameters := h.parameters_reported hR
  have hbody := h.body_reported hR
  have hresponses := h.responses_reported hR
  unfold Operation.ofEntry?
  cases Verb.ofAnyCase? key with
  | none => rfl
  | some verb =>
    rw [Option.map_some, Option.map_some]
    dsimp only [OperationObject.ofValue]
    rw [hasRequirement_ite, hasRequirement_ite, hsummary, hdescription, htags, hown, hsecurity,
      hparameters, hbody, hresponses]

/-- **Documents that agree have the same operations.** -/
theorem operations_eq (h : IsAgreement R) (hR : R .document v w) {d d' : Document}
    (hd : Document.ofValue? v = some d) (hd' : Document.ofValue? w = some d') :
    operations d = operations d' := by
  have hsecurity : hasRequirement (v.get? "security") = hasRequirement (w.get? "security") := by
    rw [hasRequirement_get?, hasRequirement_get?]
    exact h.requirement (h.field hR rfl)
  have hpaths : R .paths (fieldOf v "paths") (fieldOf w "paths") := h.field hR rfl
  rw [Spec.operations_eq hd, Spec.operations_eq hd', List.flatMap, List.flatMap]
  refine congrArg List.flatten (map_eq_of_forall₂ ?_ (h.forall₂_sorted hpaths (by decide)))
  rintro ⟨path, x⟩ ⟨_, y⟩ ⟨rfl, hitem⟩
  have hsorted := h.forall₂_sorted (hitem .item rfl) (by decide)
  refine filterMap_eq_of_forall₂ ?_ hsorted
  rintro ⟨key, x⟩ ⟨_, y⟩ ⟨rfl, hxy⟩
  dsimp only at hxy ⊢
  cases hverb : Verb.ofAnyCase? key with
  | none =>
    rw [Operation.ofEntry?, Operation.ofEntry?, hverb]
    rfl
  | some verb =>
    have hentry : Part.item.member? key = some .operation := by
      rw [Part.member?, hverb]
      rfl
    exact h.ofEntry? (hxy _ hentry) hsecurity path key

end IsAgreement

end ApiReport.Spec
