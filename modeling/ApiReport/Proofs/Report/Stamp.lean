import ApiReport.Proofs.Text.Find
import ApiReport.Route.Report
import ApiReport.Spec.Report

/-!
# Reports generated at different times

A stamp is one line: neither the digits of a clock nor the text for an instant without one hold a
line feed. So two reports on the same things have the same lines but for the second ones, which tell
when they were generated, and count as the same.

Key definitions: `Report.AgreeButSecond`.
Key theorems: `Calendar.not_mem_stamp`, `Report.same_text`, `Spec.report_same`, `Route.report_same`.
-/
namespace ApiReport

/-! ### Stamps are single lines -/

namespace Calendar

theorem not_mem_padded (width n : Nat) : '\n' ∉ (padded width n).toList := by
  unfold padded
  rw [String.toList_ofList, List.mem_append, not_or]
  constructor
  · intro h
    exact absurd (List.eq_of_mem_replicate h) (by decide)
  · intro h
    have := Nat.isDigit_of_mem_toDigits (by decide) (by decide) h
    exact absurd this (by decide)

theorem not_mem_yearText (y : Int) : '\n' ∉ (yearText y).toList := by
  unfold yearText
  rw [Text.not_mem_toList_append]
  refine ⟨?_, not_mem_padded _ _⟩
  split <;> decide

theorem not_mem_clockStamp (c : Clock) : '\n' ∉ c.stamp.toList := by
  have colon : '\n' ∉ ":".toList := by decide
  have dash : '\n' ∉ "-".toList := by decide
  have blank : '\n' ∉ " ".toList := by decide
  unfold Clock.stamp
  simp only [Text.not_mem_toList_append]
  simp only [not_mem_yearText, not_mem_padded, colon, dash, blank, not_false_eq_true, and_self]

/-- A stamp is one line. -/
theorem not_mem_stamp (instant : Option Int) (zone : Option String) :
    '\n' ∉ (stamp instant zone).toList := by
  unfold stamp
  generalize ht : (do
    let t ← instant.bind instant?
    let z ← Zone.ofStampName? zone
    let shown ← instant? (t + z.offset t * 60000)
    some (Clock.ofSeconds (shown.fdiv 1000)).stamp : Option String) = text?
  cases text? with
  | none => decide
  | some text =>
    simp only [Option.bind_eq_bind, Option.bind_eq_some_iff, Option.some.injEq] at ht
    obtain ⟨_, _, _, _, shown, _, rfl⟩ := ht
    exact not_mem_clockStamp _

end Calendar

namespace Report

/-- Texts whose lines are the same, except that their second lines may differ. -/
def AgreeButSecond (a b : String) : Prop :=
  ∃ first second second' rest, Text.pieces '\n' a.toList = first :: second :: rest ∧
    Text.pieces '\n' b.toList = first :: second' :: rest

theorem toList_text (lines : List String) :
    (text lines).toList = Text.join '\n' (lines.map String.toList) :=
  Text.toList_intercalate '\n' lines

theorem pieces_text {lines : List String} (hne : lines ≠ [])
    (h : ∀ line ∈ lines, '\n' ∉ line.toList) :
    Text.pieces '\n' (text lines).toList = lines.map String.toList := by
  rw [toList_text, Text.pieces_join (by simpa using hne) (List.forall_mem_map.2 h)]

theorem pieces_text_cons {line : String} {lines : List String} (hl : '\n' ∉ line.toList)
    (hne : lines ≠ []) :
    Text.pieces '\n' (text (line :: lines)).toList =
      line.toList :: Text.pieces '\n' (text lines).toList := by
  rw [toList_text, List.map_cons, Text.join_cons_of_ne_nil _ _ (by simpa using hne),
    Text.pieces_append_cons _ hl, toList_text]

theorem not_mem_stampLine (instant : Option Int) (zone : Option String) :
    '\n' ∉ (stampLine instant zone).toList :=
  Text.not_mem_toList_append.2 ⟨by decide, Calendar.not_mem_stamp instant zone⟩

/-- The lines of a report: its title, its stamp and the rest. -/
theorem pieces_header {title : String} (ht : '\n' ∉ title.toList) (instant : Option Int)
    (zone : Option String) (lines : List String) :
    Text.pieces '\n' (text (header title instant zone ++ lines)).toList =
      ("# " ++ title).toList :: (stampLine instant zone).toList ::
        Text.pieces '\n' (text ("" :: lines)).toList := by
  have ht' : '\n' ∉ ("# " ++ title).toList := Text.not_mem_toList_append.2 ⟨by decide, ht⟩
  show Text.pieces '\n' (text (("# " ++ title) :: stampLine instant zone :: "" :: lines)).toList = _
  rw [pieces_text_cons ht' (List.cons_ne_nil _ _),
    pieces_text_cons (not_mem_stampLine instant zone) (List.cons_ne_nil _ _)]

theorem withoutStamp_header {title : String} (ht : '\n' ∉ title.toList) (instant : Option Int)
    (zone : Option String) (lines : List String) :
    withoutStamp (text (header title instant zone ++ lines)) =
      String.ofList (Text.join '\n'
        (("# " ++ title).toList :: Text.pieces '\n' (text ("" :: lines)).toList)) := by
  have hs : isStampLine (stampLine instant zone).toList = true := by
    rw [isStampLine, List.isPrefixOf_iff_prefix, stampLine, String.toList_append]
    exact List.prefix_append _ _
  rw [withoutStamp, pieces_header ht, dropStamp, if_pos hs]

/-- Reports that differ in when they were generated are the same. -/
theorem same_text {title : String} (ht : '\n' ∉ title.toList) (i₁ i₂ : Option Int)
    (z₁ z₂ : Option String) (lines : List String) :
    same (text (header title i₁ z₁ ++ lines)) (text (header title i₂ z₂ ++ lines)) = true ∧
      AgreeButSecond (text (header title i₁ z₁ ++ lines)) (text (header title i₂ z₂ ++ lines)) := by
  constructor
  · rw [same, decide_eq_true_eq, withoutStamp_header ht, withoutStamp_header ht]
  · exact ⟨_, _, _, _, pieces_header ht i₁ z₁ lines, pieces_header ht i₂ z₂ lines⟩

end Report

theorem Spec.report_same (ops : List Spec.Operation) (i₁ i₂ : Option Int) (zone : Option String) :
    Report.same (Spec.report ops i₁ zone) (Spec.report ops i₂ zone) = true ∧
      Report.AgreeButSecond (Spec.report ops i₁ zone) (Spec.report ops i₂ zone) := by
  unfold Spec.report Spec.reportLines
  rw [List.append_assoc, List.append_assoc]
  exact Report.same_text (by decide) i₁ i₂ zone zone _

theorem Route.report_same (routes : List Route) (withoutRoutes : List String) (o : Route.Options)
    (instant : Option Int) :
    Report.same (Route.report routes withoutRoutes o)
        (Route.report routes withoutRoutes { o with instant }) = true ∧
      Report.AgreeButSecond (Route.report routes withoutRoutes o)
        (Route.report routes withoutRoutes { o with instant }) := by
  unfold Route.report Route.reportLines
  simp only [List.append_assoc]
  exact Report.same_text (by decide) o.instant instant o.zone o.zone _

end ApiReport
