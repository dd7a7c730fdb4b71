import ApiReport.Proofs.Spec.Agreement

/-!
# Values of a wrong type

No mapping is refused as a document, whatever stands in it. A value that is not what its place asks
for is contained at that place: the document says the same without it, and the fields and elements
around it stay as they are. A part that is listed by name or by position (a path item, an operation,
a response, a media type, a parameter) keeps its place and says nothing, as the empty mapping does.

The content of a request body is left out. A body with no key at all is not reported, so taking the
only key of a body away is not the same as leaving a content there that says nothing.

Key definitions: `Part.Fits`, `Mended`, `Blank`, `Contained`.
Key theorems: `isAgreement_contained`, `operations_of_mended`.
-/
namespace ApiReport.Spec

/-- A value is of the type that a part asks for. -/
def Part.Fits : Part → Value → Prop
  | .any, _ => True
  | .text, v => ∃ s, v = .text s
  | .truth, v => ∃ b, v = .bool b
  | .texts, v => ∃ ts : List String, v = .list (ts.map Value.text)
  | .parameters, v => ∃ items, v = .list items
  | _, v => ∃ entries, v = .mapping entries

/-- One value of a wrong type is taken away: a field is deleted, and an entry of a table or an
element of a list is replaced by the empty mapping. -/
inductive Mended : Part → Value → Value → Prop
  | deleted {p q : Part} {before after : List (String × Value)} {key : String} {bad : Value}
      (hfield : (key, q) ∈ p.fields) (hbody : p ≠ .body) (hbad : ¬ q.Fits bad) :
      Mended p (.mapping (before ++ (key, bad) :: after)) (.mapping (before ++ after))
  | emptied {p q : Part} {before after : List (String × Value)} {key : String} {bad : Value}
      (hentry : p.member? key = some q) (hbad : ¬ q.Fits bad) :
      Mended p (.mapping (before ++ (key, bad) :: after))
        (.mapping (before ++ (key, .mapping []) :: after))
  | emptiedElement {before after : List Value} {bad : Value} (hbad : ¬ Part.parameter.Fits bad) :
      Mended .parameters (.list (before ++ bad :: after)) (.list (before ++ .mapping [] :: after))
  | inField {p q : Part} {before after : List (String × Value)} {key : String} {x y : Value}
      (hfield : p.field? key = some q) (h : Mended q x y) :
      Mended p (.mapping (before ++ (key, x) :: after)) (.mapping (before ++ (key, y) :: after))
  | inElement {before after : List Value} {x y : Value} (h : Mended .parameter x y) :
      Mended .parameters (.list (before ++ x :: after)) (.list (before ++ y :: after))

variable {p q : Part} {v w : Value} {key : String}

/-! ### One entry among others -/

/-- What holds of all members holds of them with one replaced. -/
theorem forall_mem_replaced {α : Type} {P : α → Prop} {before after : List α} {a b : α}
    (h : ∀ x ∈ before ++ a :: after, P x) (hb : P b) : ∀ x ∈ before ++ b :: after, P x := by
  rw [List.forall_mem_append, List.forall_mem_cons] at h ⊢
  exact ⟨h.1, hb, h.2.2⟩

section Entry

variable {before after : List (String × Value)} {a b : Value}

theorem keys_replaced (before after : List (String × Value)) (key : String) (a b : Value) :
    (before ++ (key, b) :: after).map Prod.fst = (before ++ (key, a) :: after).map Prod.fst := by
  rw [List.map_append, List.map_append, List.map_cons, List.map_cons]

theorem namesOf_replaced : namesOf (.mapping (before ++ (key, b) :: after)) =
    namesOf (.mapping (before ++ (key, a) :: after)) := by
  rw [namesOf_mapping, namesOf_mapping, keys_replaced before after key a b]

/-- The key of an entry is no other key of its mapping. -/
theorem not_mem_keys (h : (Value.mapping (before ++ (key, a) :: after)).IsProper) :
    key ∉ (before ++ after).map Prod.fst := by
  cases h with
  | mapping hentries =>
    have hdistinct := hentries.distinct
    rw [List.map_append, List.map_cons] at hdistinct
    rw [List.map_append]
    exact (List.nodup_middle.1 hdistinct).notMem

theorem fieldOf_entry (h : key ∉ (before ++ after).map Prod.fst) (k : String) :
    fieldOf (.mapping (before ++ (key, a) :: after)) k =
      if k = key then a else fieldOf (.mapping (before ++ after)) k := by
  have hbefore : key ∉ before.map Prod.fst := by
    rw [List.map_append] at h
    exact fun hmem => h (List.mem_append_left _ hmem)
  show ((before ++ (key, a) :: after).lookup k).getD .null = _
  rw [lookup_append_cons hbefore]
  by_cases hk : k = key
  · rw [if_pos hk, if_pos (beq_iff_eq.2 hk)]
    rfl
  · rw [if_neg hk, if_neg (mt beq_iff_eq.1 hk)]
    rfl

theorem fieldOf_deleted (h : key ∉ (before ++ after).map Prod.fst) :
    fieldOf (.mapping (before ++ after)) key = .null := by
  show ((before ++ after).lookup key).getD .null = .null
  rw [lookup_eq_none_iff_keys.2 h]
  rfl

theorem isProper_replaced (h : (Value.mapping (before ++ (key, a) :: after)).IsProper)
    (hb : b.IsProper) : (Value.mapping (before ++ (key, b) :: after)).IsProper := by
  cases h with
  | mapping hentries hvalues =>
    have hkeys := keys_replaced before after key a b
    refine .mapping ⟨hkeys ▸ hentries.distinct, hkeys ▸ hentries.ordered⟩ ?_
    exact forall_mem_replaced hvalues hb

theorem isProper_deleted (h : (Value.mapping (before ++ (key, a) :: after)).IsProper) :
    (Value.mapping (before ++ after)).IsProper := by
  cases h with
  | mapping hentries hvalues =>
    have hsublist : (before ++ after).Sublist (before ++ (key, a) :: after) :=
      (List.sublist_cons_self _ _).append_left before
    have hkeys := hsublist.map Prod.fst
    refine .mapping ⟨hentries.distinct.sublist hkeys, hentries.ordered.sublist hkeys⟩ fun e he => ?_
    exact hvalues e (hsublist.mem he)

/-- The value of an entry is as proper as its mapping. -/
theorem isProper_entry (h : (Value.mapping (before ++ (key, a) :: after)).IsProper) :
    a.IsProper := by
  cases h with
  | mapping _ hvalues => exact hvalues (key, a) List.mem_append_cons_self

end Entry

/-! ### One element among others -/

section Element

variable {before after : List Value} {x y : Value}

theorem isProper_replacedElement (h : (Value.list (before ++ x :: after)).IsProper)
    (hy : y.IsProper) : (Value.list (before ++ y :: after)).IsProper := by
  cases h with
  | list hitems => exact .list (forall_mem_replaced hitems hy)

theorem isProper_element (h : (Value.list (before ++ x :: after)).IsProper) : x.IsProper := by
  cases h with
  | list hitems => exact hitems x List.mem_append_cons_self

theorem forall₂_replaced {R : Value → Value → Prop} (hrefl : ∀ v, R v v) (h : R x y) :
    (before ++ x :: after).Forall₂ R (before ++ y :: after) := by
  have hsame : ∀ xs : List Value, xs.Forall₂ R xs := fun xs =>
    List.forall₂_same.2 fun v _ => hrefl v
  exact List.rel_append (hsame before) (.cons h (hsame after))

end Element

theorem Mended.isProper (h : Mended p v w) (hv : v.IsProper) : w.IsProper := by
  induction h with
  | deleted => exact isProper_deleted hv
  | emptied => exact isProper_replaced hv Value.isProper_empty
  | emptiedElement => exact isProper_replacedElement hv Value.isProper_empty
  | inField _ _ ih => exact isProper_replaced hv (ih (isProper_entry hv))
  | inElement _ ih => exact isProper_replacedElement hv (ih (isProper_element hv))

/-! ### Values that say nothing -/

/-- A value that says nothing as a part: it is of a wrong type, or the empty mapping. -/
def Blank (p : Part) (v : Value) : Prop := ¬ p.Fits v ∨ v = .mapping []

namespace Blank

theorem empty : Blank p (.mapping []) := .inr rfl

theorem null (h : ¬ p.Fits v) : Blank p .null := by
  left
  cases p with
  | any => exact (h trivial).elim
  | _ => rintro ⟨_, hnull⟩; cases hnull

/-- What is looked at in a mapping is not there. -/
theorem fieldOf (h : Blank p v) (hfield : p.field? key = some q) : fieldOf v key = .null := by
  cases v with
  | mapping entries =>
    rcases h with hfits | hempty
    · cases p <;> first | exact (hfits ⟨entries, rfl⟩).elim | cases hfield
    · cases hempty
      rfl
  | _ => rfl

theorem names (h : Blank p v) (hp : p ∈ [Part.paths, .item, .body, .responses, .content]) :
    names v = [] := by
  cases v with
  | mapping entries =>
    rcases h with hfits | hempty
    · simp only [List.mem_cons, List.not_mem_nil, or_false] at hp
      rcases hp with rfl | rfl | rfl | rfl | rfl <;> exact (hfits ⟨entries, rfl⟩).elim
    · cases hempty
      rfl
  | _ => rfl

theorem elements (h : Blank .parameters v) : elements v = [] := by
  cases v with
  | list items => exact (h.elim (fun hfits => hfits ⟨items, rfl⟩) nofun).elim
  | _ => rfl

theorem textOf? (h : Blank .text v) : textOf? v = none := by
  cases v with
  | text s => exact (h.elim (fun hfits => hfits ⟨s, rfl⟩) nofun).elim
  | _ => rfl

theorem boolOf? (h : Blank .truth v) : boolOf? v = none := by
  cases v with
  | bool b => exact (h.elim (fun hfits => hfits ⟨b, rfl⟩) nofun).elim
  | _ => rfl

theorem textsOf? (h : Blank .texts v) : textsOf? v = none := by
  rcases h with hfits | rfl
  · refine Option.eq_none_iff_forall_ne_some.2 fun ts hts => hfits ⟨ts, textsOf?_eq_some.1 hts⟩
  · rfl

theorem hasRequirement (h : Blank .any v) : hasRequirement (some v) = false := by
  rcases h with hfits | rfl
  · exact (hfits trivial).elim
  · rfl

end Blank

/-! ### Agreement -/

/-- What becomes of a value when some value is mended: it is that value, or holds it, or stays. -/
inductive Contained (p : Part) (v w : Value) : Prop
  | same (h : v = w)
  | blank (hv : Blank p v) (hw : Blank p w)
  | mended (h : Mended p v w)

theorem field?_of_mem_fields (h : (key, q) ∈ p.fields) : p.field? key = some q := by
  have hall : ∀ e ∈ p.fields, p.field? e.1 = some e.2 := by
    cases p <;> decide
  exact hall (key, q) h

theorem field?_of_member? (h : p.member? key = some q) : p.field? key = some q := by
  rw [Part.field?, h]
  rfl

namespace Contained

variable {before after : List (String × Value)} {k : String} {a b : Value}

theorem fieldOf_replaced (hk : k ∉ (before ++ after).map Prod.fst)
    (h : key = k → Contained q a b) :
    Contained q (fieldOf (.mapping (before ++ (k, a) :: after)) key)
      (fieldOf (.mapping (before ++ (k, b) :: after)) key) := by
  rw [fieldOf_entry hk, fieldOf_entry hk]
  by_cases hkey : key = k
  · rw [if_pos hkey, if_pos hkey]
    exact h hkey
  · rw [if_neg hkey, if_neg hkey]
    exact .same rfl

theorem fieldOf_deleted (hk : k ∉ (before ++ after).map Prod.fst)
    (h : key = k → Contained q a .null) :
    Contained q (fieldOf (.mapping (before ++ (k, a) :: after)) key)
      (fieldOf (.mapping (before ++ after)) key) := by
  rw [fieldOf_entry hk]
  by_cases hkey : key = k
  · subst hkey
    rw [if_pos rfl, Spec.fieldOf_deleted hk]
    exact h rfl
  · rw [if_neg hkey]
    exact .same rfl

end Contained

namespace Mended

theorem fieldOf (h : Mended p v w) (hv : v.IsProper) (hq : p.field? key = some q) :
    Contained q (fieldOf v key) (Spec.fieldOf w key) := by
  cases h with
  | deleted hfield _ hbad =>
    refine .fieldOf_deleted (not_mem_keys hv) fun hkey => ?_
    subst hkey
    cases (field?_of_mem_fields hfield).symm.trans hq
    exact .blank (.inl hbad) (.null hbad)
  | emptied hentry hbad =>
    refine .fieldOf_replaced (not_mem_keys hv) fun hkey => ?_
    subst hkey
    cases (field?_of_member? hentry).symm.trans hq
    exact .blank (.inl hbad) .empty
  | inField hfield h =>
    refine .fieldOf_replaced (not_mem_keys hv) fun hkey => ?_
    subst hkey
    cases hfield.symm.trans hq
    exact .mended h
  | emptiedElement => exact .same rfl
  | inElement => exact .same rfl

/-- Only a field of a part that is no table is ever deleted. -/
theorem namesOf (h : Mended p v w)
    (hp : p ∈ [Part.paths, .item, .body, .responses, .content]) : namesOf v = namesOf w := by
  cases h with
  | deleted hfield hbody =>
    simp only [List.mem_cons, List.not_mem_nil, or_false] at hp
    rcases hp with rfl | rfl | rfl | rfl | rfl
    · cases hfield
    · cases hfield
    · exact (hbody rfl).elim
    · cases hfield
    · cases hfield
  | emptied => exact namesOf_replaced
  | inField => exact namesOf_replaced
  | emptiedElement => rfl
  | inElement => rfl

theorem elements (h : Mended .parameters v w) :
    (elements v).Forall₂ (Contained .parameter) (Spec.elements w) := by
  cases h with
  | emptiedElement hbad =>
    exact forall₂_replaced (fun _ => .same rfl) (.blank (.inl hbad) .empty)
  | inElement h => exact forall₂_replaced (fun _ => .same rfl) (.mended h)
  | deleted => exact .nil
  | emptied => exact .nil
  | inField => exact .nil

/-- There is nothing to mend in a value that is not looked into. -/
theorem false_of_leaf (h : Mended p v w) (hp : p ∈ [Part.text, .truth, .texts, .any]) : False := by
  simp only [List.mem_cons, List.not_mem_nil, or_false] at hp
  cases h with
  | deleted hfield => rcases hp with rfl | rfl | rfl | rfl <;> cases hfield
  | emptied hentry => rcases hp with rfl | rfl | rfl | rfl <;> cases hentry
  | inField hfield => rcases hp with rfl | rfl | rfl | rfl <;> cases hfield
  | emptiedElement => rcases hp with hp | hp | hp | hp <;> cases hp
  | inElement => rcases hp with hp | hp | hp | hp <;> cases hp

end Mended

/-- Two values are read alike, if blank values and mended values are. -/
theorem Contained.eq_of {α : Type} {f : Value → α} {b : α} (h : Contained p v w)
    (hblank : ∀ {v}, Blank p v → f v = b) (hmended : Mended p v w → f v = f w) : f v = f w := by
  cases h with
  | same h => rw [h]
  | blank hv hw => rw [hblank hv, hblank hw]
  | mended h => exact hmended h

theorem Contained.namesOf (h : Contained p v w)
    (hp : p ∈ [Part.paths, .item, .body, .responses, .content]) : namesOf v = namesOf w := by
  refine h.eq_of (b := []) (fun hblank => ?_) fun hmended => hmended.namesOf hp
  exact congrArg (List.map Prod.fst) (hblank.names hp)

theorem isAgreement_contained :
    IsAgreement fun p v w => Contained p v w ∧ v.IsProper ∧ w.IsProper where
  proper h := h.2
  field := by
    intro p v w key q ⟨h, hv, hw⟩ hq
    refine ⟨?_, IsProper.fieldOf hv key, IsProper.fieldOf hw key⟩
    cases h with
    | same h => exact .same (by rw [h])
    | blank hv hw => exact .same ((hv.fieldOf hq).trans (hw.fieldOf hq).symm)
    | mended h => exact h.fieldOf hv hq
  elements := by
    intro v w ⟨h, hv, hw⟩
    refine forall₂_proper ?_ (IsProper.elements hv) (IsProper.elements hw)
    cases h with
    | same h =>
      rw [h]
      exact List.forall₂_same.2 fun _ _ => .same rfl
    | blank hv hw =>
      rw [hv.elements, hw.elements]
      exact .nil
    | mended h => exact h.elements
  names := by
    intro p v w ⟨h, _⟩ hp
    have hp : p ∈ [Part.paths, .item, .body, .responses, .content] :=
      List.mem_append_left [Part.content] hp
    exact .of_eq (h.namesOf hp)
  contentNames h := h.1.namesOf (by decide)
  text h := h.1.eq_of Blank.textOf? fun h => (h.false_of_leaf (by decide)).elim
  truth h := h.1.eq_of Blank.boolOf? fun h => (h.false_of_leaf (by decide)).elim
  texts h := h.1.eq_of Blank.textsOf? fun h => (h.false_of_leaf (by decide)).elim
  requirement h := h.1.eq_of Blank.hasRequirement fun h => (h.false_of_leaf (by decide)).elim

/-- **A value of a wrong type counts as absent.** Every mapping is a document, and its operations
are the same after one value of a wrong type, wherever it stands, has been taken away. -/
theorem operations_of_mended {entries : List (String × Value)}
    (hproper : (Value.mapping entries).IsProper) :
    ∃ d, Document.ofValue? (.mapping entries) = some d ∧
      ∀ w, Mended .document (.mapping entries) w →
        ∃ d', Document.ofValue? w = some d' ∧ operations d' = operations d := by
  refine ⟨_, rfl, fun w h => ?_⟩
  have hdocument : ∃ d', Document.ofValue? w = some d' := by
    cases h <;> exact ⟨_, rfl⟩
  obtain ⟨d', hd'⟩ := hdocument
  have hcontained : Contained .document (.mapping entries) w := .mended h
  have hoperations := isAgreement_contained.operations_eq
    ⟨hcontained, hproper, h.isProper hproper⟩ rfl hd'
  exact ⟨d', hd', hoperations.symm⟩

/-- An operation whose tags are no list. -/
def strayTags : Value := .mapping [("tags", .text "a"), ("summary", .text "b")]

/-- The same operation without tags. -/
def noTags : Value := .mapping [("summary", .text "b")]

/-- A document with an operation in it. -/
def withOperation (operation : Value) : List (String × Value) :=
  [("paths", .mapping [("/", .mapping [("get", operation), ("post", .null)]), ("/a", .null)]),
    ("security", .null)]

theorem operations_of_mended_sample :
    (Value.mapping (withOperation strayTags)).IsProper ∧
      Mended .document (.mapping (withOperation strayTags)) (.mapping (withOperation noTags)) ∧
      ∃ d d', Document.ofValue? (.mapping (withOperation strayTags)) = some d ∧
        Document.ofValue? (.mapping (withOperation noTags)) = some d' ∧
        operations d' = operations d := by
  have hproper : (Value.mapping (withOperation strayTags)).IsProper := by
    refine Value.isProper_pair (by decide) (by decide) (by decide) ?_ .null
    refine Value.isProper_pair (by decide) (by decide) (by decide) ?_ .null
    refine Value.isProper_pair (by decide) (by decide) (by decide) ?_ .null
    exact Value.isProper_pair (by decide) (by decide) (by decide) (.text _) (.text _)
  have hmended : Mended .document (.mapping (withOperation strayTags))
      (.mapping (withOperation noTags)) := by
    have htags : Mended .operation strayTags noTags :=
      @Mended.deleted .operation .texts [] _ "tags" _ (by decide) (by decide)
        (by rintro ⟨ts, hts⟩; cases hts)
    have hget := @Mended.inField .item .operation [] [("post", .null)] "get" _ _ (by decide) htags
    have hpath := @Mended.inField .paths .item [] [("/a", .null)] "/" _ _ (by decide) hget
    exact @Mended.inField .document .paths [] [("security", .null)] "paths" _ _ (by decide) hpath
  obtain ⟨d, hd, hall⟩ := operations_of_mended hproper
  obtain ⟨d', hd', hoperations⟩ := hall _ hmended
  exact ⟨hproper, hmended, d, d', hd, hd', hoperations⟩

end ApiReport.Spec
