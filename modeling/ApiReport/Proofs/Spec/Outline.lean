import ApiReport.Proofs.Report.Same
import ApiReport.Proofs.Spec.Operations
import ApiReport.Proofs.Text.Find

/-!
# What a report determines of the operations

Every line of a section but its heading and its line on authentication starts with words of the
report itself: a bullet, a label in bold letters, a rule. None of these is a start of what a heading
or a line on authentication starts with, or the other way round. So whatever the operations say, as
long as each text stays on its line, the sections can be told apart again, and reports that count as
the same are on the same operations.

Key definitions: `isHeadingLine`, `isAuthLine`, `Operation.IsSingleLine`, `IsDetail`, `IsSection`,
`Operation.outline`.
Key theorems: `Operation.IsSingleLine.isSection`, `pieces_sections`, `filter_sections`,
`outlines_eq_of_same`, `report_outline`.
-/
namespace ApiReport.Spec

/-- How the heading of an operation with a given verb starts. -/
def headingStart (v : Verb) : List Char := ("## " ++ v.method ++ " ").toList

def authStart : List Char := "**Auth:** ".toList

/-- Whether a line starts like the heading of an operation. -/
def isHeadingLine (line : List Char) : Bool :=
  Verb.all.any fun v => (headingStart v).isPrefixOf line

/-- Whether a line starts like a line on authentication. -/
def isAuthLine (line : List Char) : Bool := authStart.isPrefixOf line

/-! ### Operations whose texts hold no line feed -/

@[mk_iff]
structure ContentEntry.IsSingleLine (e : ContentEntry) : Prop where
  contentType : '\n' ∉ e.contentType.toList
  schemaLabel : '\n' ∉ e.schemaLabel.toList

@[mk_iff]
structure OperationParameter.IsSingleLine (p : OperationParameter) : Prop where
  location : ∀ s ∈ p.location, '\n' ∉ s.toList
  name : ∀ s ∈ p.name, '\n' ∉ s.toList
  type : '\n' ∉ p.type.toList

@[mk_iff]
structure OperationResponse.IsSingleLine (r : OperationResponse) : Prop where
  status : '\n' ∉ r.status.toList
  description : '\n' ∉ r.description.toList
  content : ∀ e ∈ r.content, e.IsSingleLine

@[mk_iff]
structure Operation.IsSingleLine (o : Operation) : Prop where
  path : '\n' ∉ o.path.toList
  summary : ∀ s ∈ o.summary, '\n' ∉ s.toList
  description : ∀ s ∈ o.description, '\n' ∉ s.toList
  tags : ∀ s ∈ o.tags, '\n' ∉ s.toList
  parameters : ∀ p ∈ o.parameters, p.IsSingleLine
  requestBody : ∀ content ∈ o.requestBody, ∀ e ∈ content, e.IsSingleLine
  responses : ∀ r ∈ o.responses, r.IsSingleLine

instance (e : ContentEntry) : Decidable e.IsSingleLine := decidable_of_iff' _ e.isSingleLine_iff

instance (p : OperationParameter) : Decidable p.IsSingleLine :=
  decidable_of_iff' _ p.isSingleLine_iff

instance (r : OperationResponse) : Decidable r.IsSingleLine :=
  decidable_of_iff' _ r.isSingleLine_iff

instance (o : Operation) : Decidable o.IsSingleLine := decidable_of_iff' _ o.isSingleLine_iff

/-! ### Lines that start with words of the report -/

/-- A single line that is neither a heading nor on authentication. -/
@[mk_iff]
structure IsDetail (line : String) : Prop where
  single : '\n' ∉ line.toList
  heading : isHeadingLine line.toList = false
  auth : isAuthLine line.toList = false

/-- Words that are no start of a heading or of a line on authentication, and that no such start is
a start of. -/
def IsApart (words : String) : Prop :=
  '\n' ∉ words.toList ∧ ∀ start ∈ authStart :: Verb.all.map headingStart,
    ¬ start <+: words.toList ∧ ¬ words.toList <+: start

instance (words : String) : Decidable (IsApart words) := inferInstanceAs (Decidable (_ ∧ _))

instance (line : String) : Decidable (IsDetail line) := decidable_of_iff' _ (isDetail_iff line)

theorem isApart_bullet : IsApart "- " := by decide

/-- Behind words of the report, any text makes a detail. -/
theorem IsApart.isDetail {words s : String} (h : IsApart words) (hs : '\n' ∉ s.toList) :
    IsDetail (words ++ s) := by
  have hstart : ∀ start ∈ authStart :: Verb.all.map headingStart,
      ¬ start.isPrefixOf (words ++ s).toList = true := by
    intro start hmem
    rw [List.isPrefixOf_iff_prefix, String.toList_append]
    exact Text.not_prefix_append (h.2 start hmem).1 (h.2 start hmem).2
  refine ⟨Text.not_mem_toList_append.2 ⟨h.1, hs⟩, ?_, ?_⟩
  · rw [isHeadingLine, List.any_eq_false]
    exact fun v hv => hstart _ (List.mem_cons_of_mem _ (List.mem_map_of_mem hv))
  · exact Bool.not_eq_true _ ▸ hstart _ List.mem_cons_self

variable {o : Operation}

theorem ContentEntry.IsSingleLine.isDetail {e : ContentEntry} (h : e.IsSingleLine) {indent : String}
    (hindent : IsApart (indent ++ "- ")) : IsDetail (e.line indent) := by
  rw [ContentEntry.line, String.append_assoc, String.append_assoc]
  refine hindent.isDetail ?_
  simp only [Text.not_mem_toList_append]
  exact ⟨h.contentType, by decide, h.schemaLabel⟩

theorem not_mem_intercalate {sep : String} {ss : List String} (hsep : '\n' ∉ sep.toList)
    (h : ∀ s ∈ ss, '\n' ∉ s.toList) : '\n' ∉ (sep.intercalate ss).toList := by
  rw [String.toList_intercalate]
  exact Text.not_mem_intercalate hsep (List.forall_mem_map.2 h)

theorem OperationParameter.IsSingleLine.isDetail {p : OperationParameter} (h : p.IsSingleLine) :
    IsDetail p.line := by
  have hlabel : ∀ s ∈ [nonEmpty? p.location, nonEmpty? p.name].filterMap id, '\n' ∉ s.toList := by
    simp only [List.mem_filterMap, List.mem_cons, List.not_mem_nil, or_false, id]
    rintro s ⟨_, rfl | rfl, hs⟩
    · exact h.location s (nonEmpty?_eq_some.1 hs).1
    · exact h.name s (nonEmpty?_eq_some.1 hs).1
  have hrequired : '\n' ∉ (if p.required then "required" else "optional").toList := by
    split <;> decide
  unfold OperationParameter.line
  simp only [String.append_assoc]
  refine isApart_bullet.isDetail ?_
  simp only [Text.not_mem_toList_append]
  exact ⟨not_mem_intercalate (by decide) hlabel, by decide, h.type, by decide, hrequired, by decide⟩

theorem OperationResponse.IsSingleLine.isDetail {r : OperationResponse} (h : r.IsSingleLine) :
    ∀ line ∈ r.lines, IsDetail line := by
  have hdescription : '\n' ∉ (if r.description = "" then "" else " " ++ r.description).toList := by
    split
    · decide
    · exact Text.not_mem_toList_append.2 ⟨by decide, h.description⟩
  rw [OperationResponse.lines, List.forall_mem_cons, List.forall_mem_map]
  refine ⟨?_, fun e he => (h.content e he).isDetail (by decide)⟩
  simp only [String.append_assoc]
  refine isApart_bullet.isDetail ?_
  simp only [Text.not_mem_toList_append]
  exact ⟨h.status, by decide, hdescription⟩

theorem isDetail_of_mem_labelled {label line : String} {value : Option String}
    (hlabel : IsApart ("**" ++ label ++ ":** ")) (hvalue : ∀ s ∈ value, '\n' ∉ s.toList)
    (hline : line ∈ labelled label value) : IsDetail line := by
  unfold labelled at hline
  split at hline
  · next s hs =>
    rw [List.mem_singleton.1 hline]
    exact hlabel.isDetail (hvalue s (nonEmpty?_eq_some.1 hs).1)
  · cases hline

/-! ### Sections -/

/-- What a section says in front of its line on authentication. -/
def Operation.above (o : Operation) : List String :=
  labelled "Summary" o.summary ++ labelled "Description" o.description ++
    (if o.tags.isEmpty then [] else ["**Tags:** " ++ ", ".intercalate o.tags])

/-- What a section says behind its line on authentication. -/
def Operation.below (o : Operation) : List String :=
  [""] ++
    (if o.parameters.isEmpty then []
      else ["**Parameters:**"] ++ o.parameters.map OperationParameter.line ++ [""]) ++
    (o.requestBody.elim [] fun content =>
      ["**Request Body:**"] ++ content.map (ContentEntry.line "") ++ [""]) ++
    (if o.responses.isEmpty then []
      else ["**Responses:**"] ++ o.responses.flatMap OperationResponse.lines ++ [""]) ++
    ["---", ""]

theorem Operation.lines_eq (o : Operation) :
    o.lines = o.heading :: (o.above ++ o.authLine :: o.below) := by
  unfold lines above below
  cases o.requestBody <;>
    simp only [Option.elim_none, Option.elim_some, List.append_assoc, List.cons_append,
      List.nil_append]

theorem isDetail_of_mem_block {title : String} {block : List String} (htitle : IsDetail title)
    (hblock : ∀ line ∈ block, IsDetail line) :
    ∀ line ∈ [title] ++ block ++ [""], IsDetail line := by
  intro line hline
  rw [List.mem_append, List.mem_append, List.mem_singleton, List.mem_singleton] at hline
  rcases hline with (rfl | hline) | rfl
  · exact htitle
  · exact hblock line hline
  · decide

namespace Operation.IsSingleLine

theorem isDetail_of_mem_above (h : o.IsSingleLine) {line : String} (hline : line ∈ o.above) :
    IsDetail line := by
  rw [above, List.mem_append, List.mem_append] at hline
  rcases hline with (hline | hline) | hline
  · exact isDetail_of_mem_labelled (by decide) h.summary hline
  · exact isDetail_of_mem_labelled (by decide) h.description hline
  · split at hline
    · cases hline
    · have hapart : IsApart "**Tags:** " := by decide
      rw [List.mem_singleton.1 hline]
      exact hapart.isDetail (not_mem_intercalate (by decide) h.tags)

theorem isDetail_of_mem_below (h : o.IsSingleLine) {line : String} (hline : line ∈ o.below) :
    IsDetail line := by
  rw [below, List.mem_append, List.mem_append, List.mem_append, List.mem_append] at hline
  rcases hline with (((hline | hline) | hline) | hline) | hline
  · rw [List.mem_singleton.1 hline]
    decide
  · split at hline
    · cases hline
    · refine isDetail_of_mem_block (by decide) (List.forall_mem_map.2 fun p hp => ?_) line hline
      exact (h.parameters p hp).isDetail
  · cases hbody : o.requestBody with
    | none =>
      rw [hbody] at hline
      cases hline
    | some content =>
      rw [hbody] at hline
      refine isDetail_of_mem_block (by decide) (List.forall_mem_map.2 fun e he => ?_) line hline
      exact (h.requestBody content hbody e he).isDetail (by decide)
  · split at hline
    · cases hline
    · refine isDetail_of_mem_block (by decide) (fun line hline => ?_) line hline
      obtain ⟨r, hr, hline⟩ := List.mem_flatMap.1 hline
      exact (h.responses r hr).isDetail line hline
  · have hrule : ∀ line ∈ ["---", ""], IsDetail line := by decide
    exact hrule line hline

end Operation.IsSingleLine

/-- The lines of the section of an operation: the heading, behind it no other heading, and one line
on authentication, which says whether it is required. -/
structure IsSection (o : Operation) (lines : List (List Char)) : Prop where
  heading : lines.head? = some ("## " ++ o.verb.method ++ " " ++ o.path).toList
  no_heading : ∀ line ∈ lines.tail, isHeadingLine line = false
  auth : lines.filter isAuthLine =
    [("**Auth:** " ++ if o.authRequired then "Required" else "None").toList]

theorem filter_details {lines : List String} (h : ∀ line ∈ lines, IsDetail line) :
    (lines.map String.toList).filter isHeadingLine = [] ∧
      (lines.map String.toList).filter isAuthLine = [] := by
  simp only [List.filter_eq_nil_iff, List.forall_mem_map, Bool.not_eq_true]
  exact ⟨fun line hline => (h line hline).heading, fun line hline => (h line hline).auth⟩

theorem toList_heading (o : Operation) :
    o.heading.toList = headingStart o.verb ++ o.path.toList := by
  rw [Operation.heading, headingStart, String.toList_append]

theorem isHeadingLine_heading (o : Operation) : isHeadingLine o.heading.toList = true := by
  rw [isHeadingLine, List.any_eq_true]
  refine ⟨o.verb, by cases o.verb <;> decide, ?_⟩
  rw [List.isPrefixOf_iff_prefix, toList_heading]
  exact List.prefix_append _ _

theorem isAuthLine_heading (o : Operation) : isAuthLine o.heading.toList = false := by
  have hlonger : ∀ v, ¬ authStart <+: headingStart v := by rintro (_ | _) <;> decide
  have hshorter : ∀ v, ¬ headingStart v <+: authStart := by rintro (_ | _) <;> decide
  rw [isAuthLine, ← Bool.not_eq_true, List.isPrefixOf_iff_prefix, toList_heading]
  exact Text.not_prefix_append (hlonger o.verb) (hshorter o.verb)

/-- The line on authentication is one of two. -/
theorem authLine_facts (o : Operation) : '\n' ∉ o.authLine.toList ∧
    isHeadingLine o.authLine.toList = false ∧ isAuthLine o.authLine.toList = true := by
  unfold Operation.authLine
  cases o.authRequired <;> decide

theorem Operation.IsSingleLine.not_mem_of_mem_lines (h : o.IsSingleLine) :
    ∀ line ∈ o.lines, '\n' ∉ line.toList := by
  have hstart : ∀ v, '\n' ∉ headingStart v := by rintro (_ | _) <;> decide
  rw [o.lines_eq, List.forall_mem_cons, List.forall_mem_append, List.forall_mem_cons,
    toList_heading]
  exact ⟨Text.not_mem_append (hstart o.verb) h.path,
    fun line hline => (h.isDetail_of_mem_above hline).single, (authLine_facts o).1,
    fun line hline => (h.isDetail_of_mem_below hline).single⟩

theorem Operation.IsSingleLine.isSection (h : o.IsSingleLine) :
    IsSection o (o.lines.map String.toList) := by
  obtain ⟨-, hheading, hauth⟩ := authLine_facts o
  have habove := filter_details fun _ => h.isDetail_of_mem_above
  have hbelow := filter_details fun _ => h.isDetail_of_mem_below
  rw [o.lines_eq, List.map_cons, List.map_append, List.map_cons]
  refine ⟨rfl, ?_, ?_⟩
  · rw [List.tail_cons, List.forall_mem_append, List.forall_mem_cons, List.forall_mem_map,
      List.forall_mem_map]
    exact ⟨fun line hline => (h.isDetail_of_mem_above hline).heading, hheading,
      fun line hline => (h.isDetail_of_mem_below hline).heading⟩
  · rw [List.filter_cons_of_neg (by simp [isAuthLine_heading]), List.filter_append, habove.2,
      List.filter_cons_of_pos hauth, hbelow.2, List.nil_append]
    rfl

/-- The headings and the lines on authentication of sections that follow each other. -/
theorem filter_sections {ops : List Operation} {sections : List (List (List Char))}
    (h : ops.Forall₂ IsSection sections) :
    sections.flatten.filter isHeadingLine = ops.map (fun o => o.heading.toList) ∧
      sections.flatten.filter isAuthLine = ops.map (fun o => o.authLine.toList) := by
  induction h with
  | nil => exact ⟨rfl, rfl⟩
  | @cons o lines _ _ ho _ ih =>
    obtain ⟨more, hlines⟩ : ∃ more, lines = o.heading.toList :: more :=
      List.head?_eq_some_iff.1 ho.heading
    have hmore : more.filter isHeadingLine = [] := by
      rw [List.filter_eq_nil_iff]
      intro line hline
      have hno : isHeadingLine line = false := ho.no_heading line (by rwa [hlines])
      rw [hno]
      exact Bool.false_ne_true
    have hheading : lines.filter isHeadingLine = [o.heading.toList] := by
      rw [hlines, List.filter_cons_of_pos (isHeadingLine_heading o), hmore]
    rw [List.flatten_cons, List.filter_append, List.filter_append, ih.1, ih.2, hheading, ho.auth]
    exact ⟨rfl, rfl⟩

/-! ### Reports -/

/-- Details and then sections can be told apart in their text. -/
theorem pieces_sections {front : List String} {ops : List Operation} (hne : front ≠ [])
    (hfront : ∀ line ∈ front, IsDetail line) (hops : ∀ o ∈ ops, o.IsSingleLine) :
    ∃ sections, Text.pieces '\n' (Report.text (front ++ ops.flatMap Operation.lines)).toList =
      front.map String.toList ++ sections.flatten ∧ ops.Forall₂ IsSection sections := by
  refine ⟨ops.map fun o => o.lines.map String.toList, ?_, ?_⟩
  · have hsingle : ∀ line ∈ front ++ ops.flatMap Operation.lines, '\n' ∉ line.toList := by
      rw [List.forall_mem_append, List.forall_mem_flatMap]
      exact ⟨fun line hline => (hfront line hline).single,
        fun o ho => (hops o ho).not_mem_of_mem_lines⟩
    rw [Report.pieces_text (by simp [hne]) hsingle, List.map_append, List.map_flatMap,
      List.flatMap_def]
  · rw [List.forall₂_map_right_iff, List.forall₂_same]
    exact fun o ho => (hops o ho).isSection

theorem isDetail_of_mem_preamble : ∀ line ∈ Report.preamble, IsDetail line := by
  have hempty : IsDetail "" := by decide
  have hheaders : IsDetail "## Required Headers" := by decide
  have henvelope : IsDetail "## Standard Response Envelope" := by decide
  have hbullets : ∀ items : List String, (∀ s ∈ items, '\n' ∉ s.toList) →
      ∀ line ∈ items.map Report.bullet, IsDetail line :=
    fun items hitems => List.forall_mem_map.2 fun s hs => isApart_bullet.isDetail (hitems s hs)
  have hrequired := hbullets Report.requiredHeaders (by decide +kernel)
  have hfields := hbullets Report.envelopeFields (by decide +kernel)
  unfold Report.preamble
  simp only [List.forall_mem_append, List.forall_mem_cons]
  have hnil := List.forall_mem_nil IsDetail
  exact ⟨⟨⟨⟨⟨hheaders, hnil⟩, hrequired⟩, hempty, henvelope, hnil⟩, hfields⟩, hempty, hnil⟩

/-- What all reports start with holds no heading of an operation. -/
theorem isDetail_of_mem_front (instant : Option Int) (zone : Option String) :
    ∀ line ∈ Report.header title instant zone ++ Report.preamble, IsDetail line := by
  have htitle : IsDetail ("# " ++ title) := by decide
  have hempty : IsDetail "" := by decide
  have hapart : IsApart Report.stampStart := by decide
  have hstamp : IsDetail (Report.stampLine instant zone) :=
    hapart.isDetail (Calendar.not_mem_stamp instant zone)
  rw [List.forall_mem_append, Report.header]
  simp only [List.forall_mem_cons]
  exact ⟨⟨htitle, hstamp, hempty, List.forall_mem_nil _⟩, isDetail_of_mem_preamble⟩

/-- What a report determines of an operation. -/
def Operation.outline (o : Operation) : Verb × String × Bool := (o.verb, o.path, o.authRequired)

/-- A heading and a line on authentication are of one outline only. -/
theorem outline_eq {o' : Operation} (hheading : o.heading = o'.heading)
    (hauth : o.authLine = o'.authLine) : o.outline = o'.outline := by
  have hverb : ∀ v v', headingStart v <+: headingStart v' → v = v' := by
    rintro (_ | _) (_ | _) <;> decide
  have hlist : headingStart o.verb ++ o.path.toList = headingStart o'.verb ++ o'.path.toList := by
    rw [← toList_heading, hheading, toList_heading]
  have hsame : o.verb = o'.verb := by
    have hprefix : headingStart o'.verb <+: headingStart o.verb ++ o.path.toList :=
      hlist ▸ List.prefix_append _ _
    rcases List.prefix_or_prefix_of_prefix (List.prefix_append _ _) hprefix with hle | hle
    · exact hverb _ _ hle
    · exact (hverb _ _ hle).symm
  have hpath : o.path = o'.path := by
    rw [hsame] at hlist
    exact String.toList_injective (List.append_cancel_left hlist)
  have hrequired : o.authRequired = o'.authRequired := by
    unfold Operation.authLine at hauth
    revert hauth
    cases o.authRequired <;> cases o'.authRequired <;> decide
  rw [Operation.outline, Operation.outline, hsame, hpath, hrequired]

/-- Reports that count as the same are on operations with the same outlines. -/
theorem outlines_eq_of_same {ops ops' : List Operation} {i i' : Option Int} {z z' : Option String}
    (hops : ∀ o ∈ ops, o.IsSingleLine) (hops' : ∀ o ∈ ops', o.IsSingleLine)
    (h : Report.same (report ops i z) (report ops' i' z') = true) :
    ops.map Operation.outline = ops'.map Operation.outline := by
  have hfront : ∀ line ∈ "" :: Report.preamble, IsDetail line :=
    fun line hline =>
      isDetail_of_mem_front none none line (List.mem_cons_of_mem _ (List.mem_cons_of_mem _ hline))
  unfold report reportLines at h
  rw [List.append_assoc, List.append_assoc, Report.same_text_iff (by decide), ← List.cons_append,
    ← List.cons_append] at h
  obtain ⟨sections, hpieces, hsections⟩ :=
    pieces_sections (List.cons_ne_nil "" Report.preamble) hfront hops
  obtain ⟨sections', hpieces', hsections'⟩ :=
    pieces_sections (List.cons_ne_nil "" Report.preamble) hfront hops'
  have hflatten : sections.flatten = sections'.flatten := by
    rw [h, hpieces'] at hpieces
    exact (List.append_cancel_left hpieces).symm
  obtain ⟨hheading, hauth⟩ := filter_sections hsections
  obtain ⟨hheading', hauth'⟩ := filter_sections hsections'
  rw [hflatten] at hheading hauth
  -- the two sequences are those of one list of pairs
  have hboth : ops.map (fun o => (o.heading.toList, o.authLine.toList)) =
      ops'.map fun o => (o.heading.toList, o.authLine.toList) := by
    rw [← List.zip_map', ← List.zip_map', ← hheading, ← hauth, ← hheading', ← hauth']
  rw [← List.forall₂_eq_eq_eq, List.forall₂_map_left_iff, List.forall₂_map_right_iff] at hboth
  refine map_eq_of_forall₂ (fun o o' ho => ?_) hboth
  obtain ⟨hheading, hauth⟩ := Prod.mk.inj ho
  exact outline_eq (String.toList_injective hheading) (String.toList_injective hauth)

/-- **What a report determines of the operations.** Of operations whose texts hold no line feed, a
report is a front without headings and then one section for each, in their order, with the heading
at its start only and one line on authentication. The lines that start like a heading are the
headings, verb and path; and no report on other outlines counts as the same, whenever and for
whichever zone the two were generated. -/
theorem report_outline {ops : List Operation} (hops : ∀ o ∈ ops, o.IsSingleLine)
    (instant : Option Int) (zone : Option String) :
    (∃ front sections,
      Text.pieces '\n' (report ops instant zone).toList = front ++ sections.flatten ∧
        (∀ line ∈ front, isHeadingLine line = false) ∧ ops.Forall₂ IsSection sections) ∧
      (Text.pieces '\n' (report ops instant zone).toList).filter isHeadingLine =
        ops.map (fun o => ("## " ++ o.verb.method ++ " " ++ o.path).toList) ∧
      ∀ ops' : List Operation, (∀ o ∈ ops', o.IsSingleLine) →
        ops.map Operation.outline ≠ ops'.map Operation.outline →
          ∀ instant' zone',
            Report.same (report ops instant zone) (report ops' instant' zone') = false := by
  have hfront := isDetail_of_mem_front instant zone
  obtain ⟨sections, hpieces, hsections⟩ :=
    pieces_sections (by simp [Report.header]) hfront hops
  rw [report, reportLines, hpieces]
  refine ⟨⟨_, sections, rfl, ?_, hsections⟩, ?_, ?_⟩
  · rw [List.forall_mem_map]
    exact fun line hline => (hfront line hline).heading
  · rw [List.filter_append, (filter_details hfront).1, (filter_sections hsections).1]
    rfl
  · intro ops' hops' hne instant' zone'
    rw [Bool.eq_false_iff]
    exact fun hsame => hne (outlines_eq_of_same hops hops' hsame)

/-- Operations that say of each other what a report says of them. -/
def sampleOperations (authRequired : Bool) : List Operation := [
  { path := "/users ## GET /teams", verb := .get, summary := some "## GET /users"
    description := some "**Auth:** None", tags := ["**Auth:** Required"], authRequired
    parameters := [⟨some "## POST", some "/users", "string", true⟩], requestBody := none
    responses := [⟨"200", "**Auth:** None", [⟨"application/json", "## GET /users"⟩]⟩] },
  { path := "/users", verb := .post, summary := none, description := none, tags := []
    authRequired := true, parameters := []
    requestBody := some [⟨"## PUT /users", "**Auth:** None"⟩], responses := [] }]

theorem report_outline_sample :
    (Text.pieces '\n' (report (sampleOperations true) (some 0) none).toList).filter isHeadingLine =
        ["## GET /users ## GET /teams".toList, "## POST /users".toList] ∧
      Report.same (report (sampleOperations true) (some 0) none)
        (report (sampleOperations false) (some 0) none) = false := by
  have hsingle : ∀ authRequired, ∀ o ∈ sampleOperations authRequired, o.IsSingleLine := by
    rintro (_ | _) <;> decide
  obtain ⟨-, hheadings, hdiffer⟩ := report_outline (hsingle true) (some 0) none
  exact ⟨hheadings, hdiffer _ (hsingle false) (by decide) (some 0) none⟩

end ApiReport.Spec
