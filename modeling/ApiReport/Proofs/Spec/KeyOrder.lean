import ApiReport.Proofs.Spec.Agreement
import ApiReport.Spec.Load
import ApiReport.Spec.Report

/-!
# The order of keys

Two documents are reorderings of each other if nothing but the order of keys is different, in
whatever mappings and at whatever depth. Paths, verbs and statuses are reported in an order of their
own and every other key is looked up, so reorderings are reported alike. Media types are the one
exception: they are reported in the order in which the content mapping names them, so that order has
to be the same.

Key definitions: `Part.element`, `Reordered`.
Key theorems: `Reordered.refl`, `isAgreement_reordered`, `report_of_reordered`.
-/
namespace ApiReport.Spec

/-- What the elements of a list are read as. -/
def Part.element : Part → Part
  | .parameters => .parameter
  | _ => .any

/-- Two values that differ in the order of keys only, and not in the order of the media types of a
content mapping. -/
inductive Reordered : Part → Value → Value → Prop
  | null {p : Part} : Reordered p .null .null
  | bool {p : Part} (b : Bool) : Reordered p (.bool b) (.bool b)
  | number {p : Part} (n : Number) : Reordered p (.number n) (.number n)
  | text {p : Part} (s : String) : Reordered p (.text s) (.text s)
  | special {p : Part} (s : Special) : Reordered p (.special s) (.special s)
  | list {p : Part} {items items' : List Value} (hlength : items.length = items'.length)
      (h : ∀ x y, (x, y) ∈ items.zip items' → Reordered p.element x y) :
      Reordered p (.list items) (.list items')
  | mapping {p : Part} {entries entries' : List (String × Value)}
      (hkeys : (entries.map Prod.fst).Perm (entries'.map Prod.fst))
      (hcontent : p = .content → entries.map Prod.fst = entries'.map Prod.fst)
      (h : ∀ key x y, (key, x) ∈ entries → (key, y) ∈ entries' →
        Reordered ((p.field? key).getD .any) x y) :
      Reordered p (.mapping entries) (.mapping entries')

theorem isEmpty_eq_of_length_eq {α : Type} {xs ys : List α} (h : xs.length = ys.length) :
    xs.isEmpty = ys.isEmpty := by
  rw [Bool.eq_iff_iff, List.isEmpty_iff_length_eq_zero, List.isEmpty_iff_length_eq_zero, h]

namespace Reordered

variable {p : Part} {v w : Value}

theorem refl (h : v.IsProper) : ∀ p, Reordered p v v := by
  induction h with
  | null => exact fun _ => .null
  | bool b => exact fun _ => .bool b
  | number n => exact fun _ => .number n
  | text s => exact fun _ => .text s
  | special s => exact fun _ => .special s
  | @list items _ ih =>
    intro p
    have hsame : items.Forall₂ (Reordered p.element) items :=
      List.forall₂_same.2 fun x hx => ih x hx p.element
    exact .list rfl fun x y hxy => (List.forall₂_iff_zip.1 hsame).2 hxy
  | @mapping entries hentries _ ih =>
    intro p
    refine .mapping (.refl _) (fun _ => rfl) fun key x y hx hy => ?_
    have hx' := lookup_of_mem hentries.distinct hx
    have hy' := lookup_of_mem hentries.distinct hy
    cases hx'.symm.trans hy'
    exact ih (key, x) hx _

/-- Two entries, each with a reordering of its value. -/
theorem pair {key key' : String} (hne : key ≠ key') {x x' y y' : Value}
    (hx : Reordered ((p.field? key).getD .any) x x')
    (hy : Reordered ((p.field? key').getD .any) y y') :
    Reordered p (.mapping [(key, x), (key', y)]) (.mapping [(key, x'), (key', y')]) := by
  refine .mapping (.refl _) (fun _ => rfl) fun k a b ha hb => ?_
  simp only [List.mem_cons, List.not_mem_nil, or_false, Prod.mk.injEq] at ha hb
  rcases ha with ⟨rfl, rfl⟩ | ⟨rfl, rfl⟩
  · rcases hb with ⟨-, rfl⟩ | ⟨hk, -⟩
    · exact hx
    · exact (hne hk).elim
  · rcases hb with ⟨hk, -⟩ | ⟨-, rfl⟩
    · exact (hne hk.symm).elim
    · exact hy

/-- The entries of a mapping can be moved, if it is not a content mapping. -/
theorem perm {entries entries' : List (String × Value)} (h : Reordered p v (.mapping entries))
    (hp : p ≠ .content) (hperm : entries.Perm entries') : Reordered p v (.mapping entries') := by
  cases h with
  | mapping hkeys _ hvalues =>
    refine .mapping (hkeys.trans (hperm.map _)) (fun hcontent => (hp hcontent).elim) ?_
    exact fun key x y hx hy => hvalues key x y hx (hperm.mem_iff.2 hy)

theorem elements (h : Reordered p v w) :
    (elements v).Forall₂ (Reordered p.element) (Spec.elements w) := by
  cases h with
  | list hlength h => exact List.forall₂_iff_zip.2 ⟨hlength, fun hxy => h _ _ hxy⟩
  | _ => exact .nil

theorem names_perm (h : Reordered p v w) : (namesOf v).Perm (namesOf w) := by
  cases h with
  | mapping hkeys =>
    rw [namesOf_mapping, namesOf_mapping]
    exact hkeys.filter _
  | _ => exact .refl _

theorem contentNames (h : Reordered .content v w) : namesOf v = namesOf w := by
  cases h with
  | mapping _ hcontent =>
    rw [namesOf_mapping, namesOf_mapping, hcontent rfl]
  | _ => rfl

/-- A key is in both mappings or in none. -/
theorem fieldOf (h : Reordered p v w) (key : String) :
    Reordered ((p.field? key).getD .any) (fieldOf v key) (Spec.fieldOf w key) := by
  cases h with
  | @mapping _ entries entries' hkeys _ h =>
    show Reordered _ ((entries.lookup key).getD .null) ((entries'.lookup key).getD .null)
    have hboth : entries.lookup key = none ↔ entries'.lookup key = none := by
      rw [lookup_eq_none_iff_keys, lookup_eq_none_iff_keys, hkeys.mem_iff]
    cases hx : entries.lookup key with
    | none =>
      rw [hboth.1 hx]
      exact .null
    | some x =>
      cases hy : entries'.lookup key with
      | none =>
        rw [hboth.2 hy] at hx
        cases hx
      | some y => exact h key x y (mem_of_lookup hx) (mem_of_lookup hy)
  | _ => exact .null

theorem textOf? (h : Reordered p v w) : textOf? v = Spec.textOf? w := by
  cases h <;> rfl

theorem boolOf? (h : Reordered p v w) : boolOf? v = Spec.boolOf? w := by
  cases h <;> rfl

/-- Texts are read off two lists alike if their items are reorderings of each other. -/
theorem mapM_textOf? {items items' : List Value} (h : items.Forall₂ (Reordered p) items') :
    items.mapM Spec.textOf? = items'.mapM Spec.textOf? := by
  induction h with
  | nil => rfl
  | cons hxy _ ih => rw [List.mapM_cons, List.mapM_cons, hxy.textOf?, ih]

theorem textsOf? (h : Reordered p v w) : textsOf? v = Spec.textsOf? w := by
  have hitems := h.elements
  cases h with
  | list => exact mapM_textOf? hitems
  | _ => rfl

theorem hasRequirement (h : Reordered p v w) :
    hasRequirement (some v) = Spec.hasRequirement (some w) := by
  cases h with
  | list hlength => exact congrArg not (isEmpty_eq_of_length_eq hlength)
  | mapping hkeys =>
    have hlength := hkeys.length_eq
    rw [List.length_map, List.length_map] at hlength
    exact congrArg not (isEmpty_eq_of_length_eq hlength)
  | _ => rfl

end Reordered

theorem isAgreement_reordered :
    IsAgreement fun p v w => Reordered p v w ∧ v.IsProper ∧ w.IsProper where
  proper h := h.2
  field := by
    intro p v w key q ⟨h, hv, hw⟩ hq
    have hfield := h.fieldOf key
    rw [hq, Option.getD_some] at hfield
    exact ⟨hfield, IsProper.fieldOf hv key, IsProper.fieldOf hw key⟩
  elements := by
    intro v w ⟨h, hv, hw⟩
    exact forall₂_proper h.elements (IsProper.elements hv) (IsProper.elements hw)
  names h _ := h.1.names_perm
  contentNames h := h.1.contentNames
  text h := h.1.textOf?
  truth h := h.1.boolOf?
  texts h := h.1.textsOf?
  requirement h := h.1.hasRequirement

theorem parse_eq_ok {yaml : YamlReader} {text : List Char} {format : Format} {v : Value}
    {d : Document} (htext : valueOfText yaml format (Text.Utf8.dropMark text) = .ok v)
    (hd : Document.ofValue? v = some d) (source : String) :
    parse yaml text format source = .ok d := by
  cases v with
  | mapping entries =>
    refine bind_eq_ok.2 ⟨_, mapError_eq_ok.2 htext, ?_⟩
    rw [hd]
    rfl
  | _ => cases hd

/-- **The order of keys is not reported.** Two mappings that differ in the order of keys only, the
order of media types apart, are documents with the same operations and the same report, and so are
two texts that denote them, whatever the format of each. -/
theorem report_of_reordered {entries : List (String × Value)} {w : Value}
    (hv : (Value.mapping entries).IsProper) (hw : w.IsProper)
    (h : Reordered .document (.mapping entries) w) :
    ∃ d d', Document.ofValue? (.mapping entries) = some d ∧ Document.ofValue? w = some d' ∧
      operations d = operations d' ∧
      (∀ instant zone, report (operations d) instant zone = report (operations d') instant zone) ∧
      ∀ (yaml : YamlReader) text text' format format' source source',
        valueOfText yaml format (Text.Utf8.dropMark text) = .ok (.mapping entries) →
        valueOfText yaml format' (Text.Utf8.dropMark text') = .ok w →
        parse yaml text format source = .ok d ∧ parse yaml text' format' source' = .ok d' := by
  have hdocument : ∃ d', Document.ofValue? w = some d' := by
    cases h
    exact ⟨_, rfl⟩
  obtain ⟨d', hd'⟩ := hdocument
  have hoperations := isAgreement_reordered.operations_eq ⟨h, hv, hw⟩ rfl hd'
  refine ⟨_, d', rfl, hd', hoperations, fun instant zone => by rw [hoperations], ?_⟩
  intro yaml text text' format format' source source' htext htext'
  exact ⟨parse_eq_ok htext rfl source, parse_eq_ok htext' hd' source'⟩

/-! ### A sample -/

/-- A mapping with two entries, in this order or the other way round. -/
def mappingOf (turned : Bool) (e e' : String × Value) : Value :=
  .mapping (if turned then [e', e] else [e, e'])

theorem isProper_mappingOf {key key' : String} {v w : Value} (hne : key ≠ key')
    (hkey : indexOf? key = none) (hkey' : indexOf? key' = none) (hv : v.IsProper)
    (hw : w.IsProper) (turned : Bool) : (mappingOf turned (key, v) (key', w)).IsProper := by
  cases turned with
  | false => exact Value.isProper_pair hne hkey hkey' hv hw
  | true => exact Value.isProper_pair hne.symm hkey' hkey hw hv

theorem Reordered.mappingOf {p : Part} {key key' : String} {x x' y y' : Value} (hne : key ≠ key')
    (hp : p ≠ .content) (hx : Reordered ((p.field? key).getD .any) x x')
    (hy : Reordered ((p.field? key').getD .any) y y') :
    Reordered p (mappingOf false (key, x) (key', y)) (mappingOf true (key, x') (key', y')) :=
  (Reordered.pair hne hx hy).perm hp (.swap _ _ _)

def sampleMediaType (turned : Bool) : Value :=
  mappingOf turned ("example", .null)
    ("schema", mappingOf turned ("type", .text "object") ("$ref", .text "#/schemas/Order"))

/-- Two media types, in this order either way. -/
def sampleContent (turned : Bool) : Value :=
  .mapping [("text/plain", sampleMediaType turned), ("application/json", sampleMediaType turned)]

def sampleResponse (turned : Bool) : Value :=
  mappingOf turned ("description", .text "done") ("content", sampleContent turned)

/-- An operation with a body and two responses. -/
def sampleOperation (turned : Bool) : Value :=
  mappingOf turned
    ("requestBody", mappingOf turned ("required", .bool true) ("content", sampleContent turned))
    ("responses", mappingOf turned ("4XX", .null) ("default", sampleResponse turned))

/-- A document, or the same document with the keys of every mapping the other way round but for the
media types. -/
def sampleDocument (turned : Bool) : Value :=
  mappingOf turned ("security", .null)
    ("paths", mappingOf turned ("/a", .null)
      ("/b", mappingOf turned ("post", sampleOperation turned) ("get", .null)))

theorem isProper_sampleContent (turned : Bool) : (sampleContent turned).IsProper := by
  have hmediaType : (sampleMediaType turned).IsProper := by
    refine isProper_mappingOf (by decide) (by decide) (by decide) .null ?_ turned
    exact isProper_mappingOf (by decide) (by decide) (by decide) (.text _) (.text _) turned
  exact Value.isProper_pair (by decide) (by decide) (by decide) hmediaType hmediaType

theorem isProper_sampleOperation (turned : Bool) : (sampleOperation turned).IsProper := by
  have hcontent := isProper_sampleContent turned
  refine isProper_mappingOf (by decide) (by decide) (by decide) ?_ ?_ turned
  · exact isProper_mappingOf (by decide) (by decide) (by decide) (.bool true) hcontent turned
  · refine isProper_mappingOf (by decide) (by decide) (by decide) .null ?_ turned
    exact isProper_mappingOf (by decide) (by decide) (by decide) (.text _) hcontent turned

theorem isProper_sampleDocument (turned : Bool) : (sampleDocument turned).IsProper := by
  have hoperation := isProper_sampleOperation turned
  refine isProper_mappingOf (by decide) (by decide) (by decide) .null ?_ turned
  refine isProper_mappingOf (by decide) (by decide) (by decide) .null ?_ turned
  exact isProper_mappingOf (by decide) (by decide) (by decide) hoperation .null turned

theorem reordered_sampleContent :
    Reordered .content (sampleContent false) (sampleContent true) := by
  have hmediaType : Reordered .mediaType (sampleMediaType false) (sampleMediaType true) := by
    refine .mappingOf (by decide) (by decide) .null ?_
    exact .mappingOf (by decide) (by decide) (.text _) (.text _)
  exact .pair (by decide) hmediaType hmediaType

theorem reordered_sampleOperation :
    Reordered .operation (sampleOperation false) (sampleOperation true) := by
  refine .mappingOf (by decide) (by decide) ?_ ?_
  · exact .mappingOf (by decide) (by decide) (.bool true) reordered_sampleContent
  · refine .mappingOf (by decide) (by decide) .null ?_
    exact .mappingOf (by decide) (by decide) (.text _) reordered_sampleContent

theorem reordered_sampleDocument :
    Reordered .document (sampleDocument false) (sampleDocument true) := by
  refine .mappingOf (by decide) (by decide) .null ?_
  refine .mappingOf (by decide) (by decide) .null ?_
  exact .mappingOf (by decide) (by decide) reordered_sampleOperation .null

theorem report_of_reordered_sample :
    (sampleDocument false).IsProper ∧ (sampleDocument true).IsProper ∧
      Reordered .document (sampleDocument false) (sampleDocument true) ∧
      ∃ d d', Document.ofValue? (sampleDocument false) = some d ∧
        Document.ofValue? (sampleDocument true) = some d' ∧ operations d = operations d' := by
  have hfirst := isProper_sampleDocument false
  have hlast := isProper_sampleDocument true
  obtain ⟨d, d', hd, hd', hoperations, -⟩ :=
    report_of_reordered hfirst hlast reordered_sampleDocument
  exact ⟨hfirst, hlast, reordered_sampleDocument, d, d', hd, hd', hoperations⟩

end ApiReport.Spec
