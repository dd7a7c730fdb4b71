import ApiReport.Proofs.Report.Stamp

/-!
# When two reports are the same

A report is a title line, a line that tells when it was generated, and the rest, which does not
start with such a line again. A text is the same report if and only if it is the report with its
second line kept, replaced by a single line that starts in the same way, or left out: whatever else
may be in the text, the comparison neither takes it for the report nor misses it.

Key definitions: `Report.IsStamp`, `Report.Parts`, `Report.IsRestamped`.
Key theorems: `Report.withoutStamp_cases`, `Report.Parts.same_iff`, `Report.same_text_iff`,
`Spec.parts_report`, `Route.parts_report`.
-/
namespace ApiReport

namespace Report

variable {s title stamp rest line : String}

/-- A single line that tells when a report was generated. -/
def IsStamp (line : String) : Prop := '\n' ∉ line.toList ∧ "Generated: ".toList <+: line.toList

/-- The title line, the stamp and the rest of a report. The first two are single lines, and the rest
does not start like a stamp. -/
structure Parts (report title stamp rest : String) : Prop where
  title_line : '\n' ∉ title.toList
  isStamp : IsStamp stamp
  rest_start : ¬ "Generated: ".toList <+: rest.toList
  eq : report = title ++ "\n" ++ stamp ++ "\n" ++ rest

/-- A text that is a report with its second line kept, replaced by another stamp, or left out. -/
def IsRestamped (report title rest existing : String) : Prop :=
  existing = report ∨ (∃ line, IsStamp line ∧ existing = title ++ "\n" ++ line ++ "\n" ++ rest) ∨
    existing = title ++ "\n" ++ rest

/-! ### First lines -/

theorem isStamp_iff : IsStamp line ↔ '\n' ∉ line.toList ∧ isStampLine line.toList = true := by
  rw [isStampLine, List.isPrefixOf_iff_prefix]
  rfl

/-- A line and the text behind it are known from the text that they make up. -/
theorem line_eq {a b c d : String} (ha : '\n' ∉ a.toList) (hc : '\n' ∉ c.toList)
    (h : a ++ "\n" ++ b = c ++ "\n" ++ d) : a = c ∧ b = d := by
  have hlist : a.toList ++ '\n' :: b.toList = c.toList ++ '\n' :: d.toList := by
    simpa using congrArg String.toList h
  obtain ⟨hac, hbd⟩ := Text.append_cons_inj ha hc hlist
  exact ⟨String.toList_injective hac, String.toList_injective hbd⟩

/-- The first line of a text starts like a stamp if the text does. -/
theorem isStampLine_of_pieces {p : List Char} {ps : List (List Char)}
    (h : Text.pieces '\n' s.toList = p :: ps) (hp : isStampLine p = true) :
    "Generated: ".toList <+: s.toList := by
  rw [isStampLine, List.isPrefixOf_iff_prefix] at hp
  have hs : p <+: s.toList := by
    rw [← Text.join_pieces '\n' s.toList, h]
    cases ps with
    | nil => exact List.prefix_rfl
    | cons q ps => exact List.prefix_append _ _
  exact hp.trans hs

/-! ### Leaving the stamp out -/

theorem withoutStamp_of_stamp (ht : '\n' ∉ title.toList) (hl : IsStamp line) :
    withoutStamp (title ++ "\n" ++ line ++ "\n" ++ rest) = title ++ "\n" ++ rest := by
  obtain ⟨hl, hstamp⟩ := isStamp_iff.1 hl
  have hlist : (title ++ "\n" ++ line ++ "\n" ++ rest).toList =
      title.toList ++ '\n' :: (line.toList ++ '\n' :: rest.toList) := by simp
  apply String.toList_injective
  rw [withoutStamp, hlist, Text.pieces_append_cons _ ht, Text.pieces_append_cons _ hl, dropStamp,
    if_pos hstamp, Text.join_cons_of_ne_nil _ _ (Text.pieces_ne_nil _ _), Text.join_pieces]
  simp

theorem withoutStamp_of_not_stamp (ht : '\n' ∉ title.toList)
    (hr : ¬ "Generated: ".toList <+: rest.toList) :
    withoutStamp (title ++ "\n" ++ rest) = title ++ "\n" ++ rest := by
  have hlist : (title ++ "\n" ++ rest).toList = title.toList ++ '\n' :: rest.toList := by simp
  obtain ⟨p, ps, hp⟩ := List.exists_cons_of_ne_nil (Text.pieces_ne_nil '\n' rest.toList)
  have hstamp : ¬ isStampLine p = true := fun h => hr (isStampLine_of_pieces hp h)
  apply String.toList_injective
  rw [withoutStamp, hlist, Text.pieces_append_cons _ ht, hp, dropStamp, if_neg hstamp, ← hp,
    Text.join_cons_of_ne_nil _ _ (Text.pieces_ne_nil _ _), Text.join_pieces, String.toList_ofList]

/-- Leaving out the stamp takes a second line away, with the text behind it or with none, or it
changes nothing. -/
theorem withoutStamp_cases (s : String) :
    (∃ title line rest, '\n' ∉ title.toList ∧ IsStamp line ∧
      s = title ++ "\n" ++ line ++ "\n" ++ rest ∧ withoutStamp s = title ++ "\n" ++ rest) ∨
    '\n' ∉ (withoutStamp s).toList ∨ withoutStamp s = s := by
  have hjoin : String.ofList (Text.join '\n' (Text.pieces '\n' s.toList)) = s := by
    rw [Text.join_pieces, String.ofList_toList]
  have hmem : ∀ p ∈ Text.pieces '\n' s.toList, '\n' ∉ p := fun p => Text.not_mem_of_mem_pieces
  rcases hs : Text.pieces '\n' s.toList with _ | ⟨p, _ | ⟨q, ps⟩⟩
  · exact absurd hs (Text.pieces_ne_nil _ _)
  · refine .inr (.inr ?_)
    rw [withoutStamp, hs, dropStamp, ← hs, hjoin]
    simp
  · rw [hs] at hjoin hmem
    have hp : '\n' ∉ p := hmem p (by simp)
    have hq : '\n' ∉ q := hmem q (by simp)
    by_cases hstamp : isStampLine q = true
    · cases ps with
      | nil =>
        refine .inr (.inl ?_)
        rw [withoutStamp, hs, dropStamp, if_pos hstamp, Text.join, String.toList_ofList]
        exact hp
      | cons r ps =>
        left
        refine ⟨String.ofList p, String.ofList q, String.ofList (Text.join '\n' (r :: ps)),
          by simpa using hp, isStamp_iff.2 (by simpa using ⟨hq, hstamp⟩), ?_, ?_⟩
        · rw [← hjoin]
          apply String.toList_injective
          simp [Text.join]
        · rw [withoutStamp, hs, dropStamp, if_pos hstamp]
          apply String.toList_injective
          simp [Text.join]
    · refine .inr (.inr ?_)
      rw [withoutStamp, hs, dropStamp, if_neg hstamp, hjoin]

/-- **When a text is the same report.** -/
theorem Parts.same_iff {report existing : String} (h : Parts report title stamp rest) :
    same existing report = true ↔ IsRestamped report title rest existing := by
  have hreport : withoutStamp report = title ++ "\n" ++ rest := by
    rw [h.eq, withoutStamp_of_stamp h.title_line h.isStamp]
  rw [same, decide_eq_true_eq, hreport]
  constructor
  · intro heq
    rcases withoutStamp_cases existing with ⟨title', line, rest', ht', hl, hs, hw⟩ | hw | hw
    · obtain ⟨rfl, rfl⟩ := line_eq ht' h.title_line (hw.symm.trans heq)
      exact .inr (.inl ⟨line, hl, hs⟩)
    · -- a single line is no title with something behind it
      rw [heq] at hw
      simp at hw
    · exact .inr (.inr (hw.symm.trans heq))
  · rintro (rfl | ⟨line, hl, rfl⟩ | rfl)
    · exact hreport
    · exact withoutStamp_of_stamp h.title_line hl
    · exact withoutStamp_of_not_stamp h.title_line h.rest_start

/-! ### The parts of a report -/

theorem isStamp_stampLine (instant : Option Int) (zone : Option String) :
    IsStamp (stampLine instant zone) := by
  refine ⟨not_mem_stampLine instant zone, ?_⟩
  rw [stampLine, String.toList_append]
  exact List.prefix_append _ _

theorem text_cons (line : String) {lines : List String} (h : lines ≠ []) :
    text (line :: lines) = line ++ "\n" ++ text lines := by
  cases lines with
  | nil => exact absurd rfl h
  | cons next lines => rw [text, String.intercalate_cons_cons, text]

/-- Reports under one title are the same if they agree behind their stamps. -/
theorem same_text_iff {title : String} (ht : '\n' ∉ title.toList) (i₁ i₂ : Option Int)
    (z₁ z₂ : Option String) (lines₁ lines₂ : List String) :
    same (text (header title i₁ z₁ ++ lines₁)) (text (header title i₂ z₂ ++ lines₂)) = true ↔
      text ("" :: lines₁) = text ("" :: lines₂) := by
  have hne : ∀ s : String, Text.pieces '\n' s.toList ≠ [] := fun s => Text.pieces_ne_nil '\n' _
  rw [same, decide_eq_true_eq, withoutStamp_header ht, withoutStamp_header ht,
    Text.join_cons_of_ne_nil _ _ (hne _), Text.join_cons_of_ne_nil _ _ (hne _), Text.join_pieces,
    Text.join_pieces, String.ofList_inj, List.append_cancel_left_eq, List.cons.injEq,
    String.toList_inj]
  simp

theorem parts_text {title : String} (ht : '\n' ∉ title.toList) (instant : Option Int)
    (zone : Option String) (lines : List String) :
    Parts (text (header title instant zone ++ lines)) ("# " ++ title) (stampLine instant zone)
      (text ("" :: lines)) where
  title_line := Text.not_mem_toList_append.2 ⟨by decide, ht⟩
  isStamp := isStamp_stampLine instant zone
  rest_start := by
    -- the rest is empty or starts with an empty line
    cases lines with
    | nil => decide
    | cons line lines =>
      rw [text_cons "" (List.cons_ne_nil line lines)]
      simp
  eq := by
    show text (("# " ++ title) :: stampLine instant zone :: "" :: lines) = _
    rw [text_cons _ (List.cons_ne_nil _ _), text_cons _ (List.cons_ne_nil _ _)]
    simp only [String.append_assoc]

end Report

theorem Spec.parts_report (ops : List Spec.Operation) (instant : Option Int)
    (zone : Option String) :
    ∃ rest, Report.Parts (Spec.report ops instant zone) "# API Details"
      (Report.stampLine instant zone) rest := by
  unfold Spec.report Spec.reportLines
  rw [List.append_assoc]
  exact ⟨_, Report.parts_text (by decide) instant zone _⟩

theorem Route.parts_report (routes : List Route) (withoutRoutes : List String) (o : Route.Options) :
    ∃ rest, Report.Parts (Route.report routes withoutRoutes o) "# API Details (Parsed from Code)"
      (Report.stampLine o.instant o.zone) rest := by
  unfold Route.report Route.reportLines
  simp only [List.append_assoc]
  exact ⟨_, Report.parts_text (by decide) o.instant o.zone _⟩

end ApiReport
