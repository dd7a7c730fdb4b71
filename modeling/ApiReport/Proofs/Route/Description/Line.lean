import ApiReport.Proofs.Route.Annotation
import ApiReport.Proofs.Route.Quote

/-!
# Lines with a description

The patterns of a line are looked for in all of its text, in quotes or not. A pattern is read either
in front of the quotes of a description, or behind them, or across them, and then the description is
a part of what is read as a whole. So what is found with one description and with another is
compared place by place along the text up to the description, which the two lines share.

Key definitions: `Route.IsPlain`, `Route.Described`, `Route.opensList`, `Route.opensGroup`,
`Route.Arguments.Redescribed`.
Key theorems: `Route.isLive_line`, `Route.functionName?_line`, `Route.className?_line`,
`Route.groupPath?_line`, `Route.routeAttribute?_line`, `Route.Arguments.redescribed_ofText`.
-/
namespace ApiReport.Route

open Text (IsMargin)

variable {α : Type} {source name : String} {d d' u w : List Char}

/-! ### Described lines -/

/-- The characters that tell the parts of an attribute apart. -/
def separators : List Char := ['\'', '(', ')', '[', ']', ':']

/-- A description without separators and comment marks. -/
structure IsPlain (d : List Char) : Prop where
  ne_nil : d ≠ []
  not_mem : ∀ c ∈ separators, c ∉ d
  unmarked : holdsMark d = false

instance : DecidablePred IsPlain := fun d =>
  decidable_of_iff (d ≠ [] ∧ separators.all (fun c => !d.contains c) = true ∧ holdsMark d = false)
    ⟨fun ⟨hne, hmem, hmark⟩ => ⟨hne, by simpa using hmem, hmark⟩,
      fun h => ⟨h.ne_nil, by simpa using h.not_mem, h.unmarked⟩⟩

/-- A line with a route attribute that gives a description, but for the description. -/
structure Described where
  /-- The line in front of the attribute. -/
  front : List Char
  /-- The arguments in front of the description. -/
  arguments : List Char
  /-- The blanks in front of the colon of the description. -/
  gap : List Char
  /-- The blanks behind it. -/
  gap' : List Char
  /-- The arguments behind the description. -/
  others : List Char
  /-- The line behind the attribute. -/
  back : List Char
  /-- The description is not the first text in quotes, which is the path. -/
  quoted : '\'' ∈ arguments
  blank : IsMargin gap ∧ IsMargin gap'
  /-- The arguments run to the next closing parenthesis. -/
  unclosed : ')' ∉ arguments ∧ ')' ∉ others

namespace Described

/-- The arguments up to the description. -/
def opening (l : Described) : List Char :=
  l.arguments ++ ("description".toList ++ (l.gap ++ ':' :: l.gap'))

/-- The line up to the description. -/
def before (l : Described) : List Char := l.front ++ (attributeStart "Route" ++ l.opening)

/-- The line behind the description. -/
def behind (l : Described) : List Char := l.others ++ ([')', ']'] ++ l.back)

/-- The line with a description. -/
def line (l : Described) (d : List Char) : List Char := l.before ++ (inQuotes d ++ l.behind)

theorem quote_mem_opening (l : Described) : '\'' ∈ l.opening := List.mem_append_left _ l.quoted

theorem not_mem_opening (l : Described) : ')' ∉ l.opening := by
  have hblank : ∀ {g : List Char}, IsMargin g → ')' ∉ g := fun hg hmem => by
    have hparen := hg _ hmem
    revert hparen
    decide
  have hname : ')' ∉ "description".toList := by decide
  have hcolon : ')' ∉ ':' :: l.gap' := fun hmem =>
    hblank l.blank.2 ((List.mem_cons.1 hmem).resolve_left (by decide))
  exact Text.not_mem_append l.unclosed.1
    (Text.not_mem_append hname (Text.not_mem_append (hblank l.blank.1) hcolon))

/-- The line's own attribute ends at the first parenthesis behind the description. -/
theorem attribute?_own (l : Described) {d : List Char} (hd : ')' ∉ d) :
    attribute? "Route" (attributeStart "Route" ++ (l.opening ++ (inQuotes d ++ l.behind))) =
      some (l.opening ++ (inQuotes d ++ l.others)) := by
  have hquoted : ')' ∉ inQuotes d := not_mem_inQuotes (by decide) hd
  rw [attribute?_eq, Text.after?_append, Option.bind_some, closed?_append l.not_mem_opening,
    closed?_append hquoted, behind, closed?_append l.unclosed.2]
  simp [closed?, Text.after?]

theorem line_eq (l : Described) (d : List Char) : l.line d =
    l.front ++ (attributeStart "Route" ++ (l.opening ++ (inQuotes d ++ l.behind))) := by
  simp only [line, before, List.append_assoc]

theorem exists_routeAttribute? (l : Described) {d : List Char} (hd : ')' ∉ d) :
    ∃ text, routeAttribute? (l.line d) = some text := by
  rw [← Option.isSome_iff_exists, l.line_eq]
  refine Text.isSome_firstAt?_append ?_
  rw [Text.firstAt?_of_some (l.attribute?_own hd)]
  rfl

end Described

/-- Whether a text opens a list of middleware and does not close it. -/
def opensList (u : List Char) : Bool :=
  u.tails.any fun w =>
    match argument? "middleware" w with
    | some ('[' :: names) => !names.contains ']'
    | _ => false

/-- Whether a text opens a group attribute in which no quoted text starts. -/
def opensGroup (u : List Char) : Bool :=
  u.tails.any fun w =>
    (Text.after? (attributeStart "RouteGroup") w).any fun arguments => !arguments.contains '\''

theorem mem_of_opensList (h : opensList u = false) (hw : w <:+ u) {names : List Char}
    (hnames : argument? "middleware" w = some ('[' :: names)) : ']' ∈ names := by
  have hw := List.any_eq_false.1 h w ((List.mem_tails _ _).2 hw)
  simpa [hnames] using hw

theorem mem_of_opensGroup (h : opensGroup u = false) {arguments : List Char}
    (hw : attributeStart "RouteGroup" ++ arguments <:+ u) : '\'' ∈ arguments := by
  have hw := List.any_eq_false.1 h _ ((List.mem_tails _ _).2 hw)
  rw [Text.after?_append, Option.any_some] at hw
  simpa using hw

/-! ### What the line says -/

theorem isLive_inQuotes (hd : holdsMark d = false) (before : List (List Char)) (u v : List Char) :
    isLive before (u ++ (inQuotes d ++ v)) =
      (!(holdsMark u || holdsMark v) && endsInCode before &&
        !(['/', '/'].isPrefixOf (Text.trimStart u) || ['*'].isPrefixOf (Text.trimStart u))) := by
  have hmark : holdsMark (u ++ (inQuotes d ++ v)) = (holdsMark u || holdsMark v) := by
    unfold holdsMark at *
    rw [Bool.or_eq_false_iff] at hd
    rw [contains_inQuotes (by decide), contains_inQuotes (by decide), hd.1, hd.2]
    cases Text.contains ['/', '*'] u <;> cases Text.contains ['*', '/'] u <;> simp
  have hstart : ∀ word : List Char, '\'' ∉ word →
      word.isPrefixOf (Text.trimStart (u ++ (inQuotes d ++ v))) =
        word.isPrefixOf (Text.trimStart u) := by
    intro word hword
    have htrim : Text.trimStart (u ++ '\'' :: (d ++ '\'' :: v)) =
        Text.trimStart u ++ '\'' :: (d ++ '\'' :: v) := skipBlanks_append_quote u _
    rw [inQuotes_append, htrim, Bool.eq_iff_iff, List.isPrefixOf_iff_prefix,
      List.isPrefixOf_iff_prefix, Text.prefix_append_cons_iff hword]
  rw [isLive, hmark, hstart _ (by decide), hstart _ (by decide)]

section Line

variable {l : Described}

/-- The line names the same class first if both descriptions name the same one, or none. -/
theorem className?_line (h : className? d = className? d') :
    className? (l.line d) = className? (l.line d') := by
  unfold Described.line
  rw [className?_inQuotes, className?_inQuotes, h]

variable (hd : IsPlain d) (hd' : IsPlain d')
include hd hd'

theorem isLive_line (before : List (List Char)) :
    isLive before (l.line d') = isLive before (l.line d) := by
  unfold Described.line
  rw [isLive_inQuotes hd.unmarked, isLive_inQuotes hd'.unmarked]

theorem functionName?_line : functionName? (l.line d') = functionName? (l.line d) := by
  unfold Described.line
  rw [functionName?_inQuotes (hd.not_mem '(' (by decide)),
    functionName?_inQuotes (hd'.not_mem '(' (by decide))]

/-- The group is the same if no group attribute waits for its path in front of the description. -/
theorem groupPath?_line (h : opensGroup l.before = false) :
    groupPath? (l.line d) = groupPath? (l.line d') := by
  have hrel : Option.Rel (fun t t' : List Char => (literals t).head? = (literals t').head?)
      (Text.firstAt? (attribute? "RouteGroup") (l.line d))
      (Text.firstAt? (attribute? "RouteGroup") (l.line d')) := by
    refine Text.firstAt?_rel ?_ fun w _ hw => ?_
    · rw [firstAt?_inQuotes_attribute (by decide) (hd.not_mem '[' (by decide)),
        firstAt?_inQuotes_attribute (by decide) (hd'.not_mem '[' (by decide))]
      cases Text.firstAt? (attribute? "RouteGroup") l.behind with
      | none => exact .none
      | some t => exact .some rfl
    · refine attribute?_rel (by decide) (hd.not_mem ')' (by decide)) (hd'.not_mem ')' (by decide))
        fun u hu t t' ht => ?_
      rcases ht with rfl | ⟨v, rfl, rfl⟩
      · rfl
      · obtain ⟨p, hp⟩ := head?_literals_of_mem (mem_of_opensGroup h (hu ▸ hw))
        rw [inQuotes_append, inQuotes_append, hp, hp]
  unfold groupPath?
  revert hrel
  cases Text.firstAt? (attribute? "RouteGroup") (l.line d) <;>
    cases Text.firstAt? (attribute? "RouteGroup") (l.line d') <;> intro hrel <;> cases hrel
  · rfl
  · assumption

/-- The line's own attribute is the first one, or another one starts in front of it and holds its
first quote. -/
theorem routeAttribute?_rel :
    Option.Rel (fun t t' => ∃ u, u <:+ l.before ∧ '\'' ∈ u ∧ Requoted d d' u t t')
      (routeAttribute? (l.line d)) (routeAttribute? (l.line d')) := by
  rw [l.line_eq, l.line_eq]
  refine Text.firstAt?_rel ?_ fun w _ hw => ?_
  · rw [Text.firstAt?_of_some (l.attribute?_own (hd.not_mem ')' (by decide))),
      Text.firstAt?_of_some (l.attribute?_own (hd'.not_mem ')' (by decide)))]
    refine .some ⟨l.opening, ?_, l.quote_mem_opening, .inr ⟨l.others, rfl, rfl⟩⟩
    exact ⟨l.front ++ attributeStart "Route", List.append_assoc ..⟩
  · have hassoc : ∀ e, w ++ (attributeStart "Route" ++ (l.opening ++ (inQuotes e ++ l.behind))) =
        w ++ (attributeStart "Route" ++ l.opening) ++ (inQuotes e ++ l.behind) := by
      intro e
      simp only [List.append_assoc]
    rw [hassoc, hassoc]
    refine attribute?_rel (by decide) (hd.not_mem ')' (by decide)) (hd'.not_mem ')' (by decide))
      fun u hu t t' ht => ⟨u, ?_, ?_, ht⟩
    · have hbefore : w ++ (attributeStart "Route" ++ l.opening) <:+ l.before := by
        obtain ⟨x, hx⟩ := hw
        exact ⟨x, by rw [← List.append_assoc, hx, Described.before]⟩
      rw [hu] at hbefore
      exact (List.suffix_append _ u).trans hbefore
    · have hmem : '\'' ∈ attributeStart "Route" ++ u := by
        rw [← hu]
        exact List.mem_append_right _ (List.mem_append_right _ l.quote_mem_opening)
      exact (List.mem_append.1 hmem).resolve_left (by decide)

/-- The line declares a route with either description. Of its arguments nothing changes but a quoted
text that another one stands in front of. -/
theorem routeAttribute?_line : ∃ u t t', u <:+ l.before ∧ '\'' ∈ u ∧ Requoted d d' u t t' ∧
    routeAttribute? (l.line d) = some t ∧ routeAttribute? (l.line d') = some t' := by
  have hrel := routeAttribute?_rel (l := l) hd hd'
  obtain ⟨t, ht⟩ := l.exists_routeAttribute? (hd.not_mem ')' (by decide))
  obtain ⟨t', ht'⟩ := l.exists_routeAttribute? (hd'.not_mem ')' (by decide))
  rw [ht, ht'] at hrel
  obtain ⟨u, hu, hquote, hreplaced⟩ := Option.rel_some_some.1 hrel
  exact ⟨u, t, t', hu, hquote, hreplaced, ht, ht'⟩

end Line

/-! ### What the arguments say -/

/-- No value of another argument starts where the description does. -/
theorem Described.argument?_method (l : Described) (hw : w <:+ l.before) :
    argument? "method" w ≠ some [] := by
  intro h
  obtain ⟨g, g', hg, hg', rfl⟩ := exists_of_argument?_nil h
  obtain ⟨x, hx⟩ := hw
  have hcolon : x ++ "metho".toList ++ 'd' :: g ++ ':' :: g' =
      l.front ++ attributeStart "Route" ++ l.arguments ++ "descriptio".toList ++ 'n' :: l.gap ++
        ':' :: l.gap' := by
    have hbefore : l.before = l.front ++ (attributeStart "Route" ++
        (l.arguments ++ ("description".toList ++ (l.gap ++ ':' :: l.gap')))) := rfl
    have hmethod : "method".toList = "metho".toList ++ ['d'] := by decide
    have hdescription : "description".toList = "descriptio".toList ++ ['n'] := by decide
    rw [hbefore, hmethod, hdescription] at hx
    simpa only [List.append_assoc, List.cons_append, List.nil_append] using hx
  obtain ⟨hname, -⟩ := Text.append_margin_inj hg' l.blank.2 (by decide) (by decide) hcolon
  obtain ⟨-, hletter⟩ := Text.append_margin_inj hg l.blank.1 (by decide) (by decide) hname
  revert hletter
  decide

section Arguments

variable {l : Described} {v : List Char} (hd : IsPlain d) (hd' : IsPlain d') (hu : u <:+ l.before)
include hd hd' hu

omit hu in
/-- An argument that is read alike whatever follows a quote is found alike with both descriptions.
-/
theorem argument_requoted {read : List Char → Option α}
    (hread : ∀ cs, argument? name cs = none → read cs = none) (hname : '\'' ∉ name.toList)
    (h : ∀ w, w <:+ u → ∀ rest rest', read (w ++ '\'' :: rest) = read (w ++ '\'' :: rest')) :
    Text.firstAt? read (u ++ (inQuotes d' ++ v)) = Text.firstAt? read (u ++ (inQuotes d ++ v)) := by
  refine Text.firstAt?_append_congr ?_ fun w _ hw => ?_
  · rw [firstAt?_inQuotes_argument hread hname (hd'.not_mem ':' (by decide)),
      firstAt?_inQuotes_argument hread hname (hd.not_mem ':' (by decide))]
  · rw [inQuotes_append, inQuotes_append]
    exact h w hw _ _

theorem method_requoted :
    Text.firstAt? (textArgument? "method") (u ++ (inQuotes d' ++ v)) =
      Text.firstAt? (textArgument? "method") (u ++ (inQuotes d ++ v)) := by
  refine argument_requoted hd hd' textArgument?_eq_none (by decide) fun w hw rest rest' => ?_
  have hvalue := l.argument?_method (hw.trans hu)
  rw [textArgument?_append_quote (by decide) hvalue rest,
    textArgument?_append_quote (by decide) hvalue rest']

theorem middleware_requoted (hlist : opensList l.before = false) :
    Text.firstAt? (listArgument? "middleware") (u ++ (inQuotes d' ++ v)) =
      Text.firstAt? (listArgument? "middleware") (u ++ (inQuotes d ++ v)) := by
  refine argument_requoted hd hd' listArgument?_eq_none (by decide) fun w hw rest rest' => ?_
  have hclosed : ∀ names, argument? "middleware" w = some ('[' :: names) → ']' ∈ names :=
    fun names => mem_of_opensList hlist (hw.trans hu)
  rw [listArgument?_append_quote (by decide) hclosed,
    listArgument?_append_quote (by decide) hclosed]

omit hu in
/-- The description is the quoted text that is replaced, or does not depend on it. -/
theorem description_requoted :
    Option.Rel (fun x x' => x' = x ∨ x = d ∧ x' = d')
      (Text.firstAt? (textArgument? "description") (u ++ (inQuotes d ++ v)))
      (Text.firstAt? (textArgument? "description") (u ++ (inQuotes d' ++ v))) := by
  have hsame : ∀ o : Option (List Char),
      Option.Rel (fun x x' => x' = x ∨ x = d ∧ x' = d') o o := by
    intro o
    cases o with
    | none => exact .none
    | some x => exact .some (.inl rfl)
  refine Text.firstAt?_rel ?_ fun w _ _ => ?_
  · rw [firstAt?_inQuotes_argument textArgument?_eq_none (by decide) (hd.not_mem ':' (by decide)),
      firstAt?_inQuotes_argument textArgument?_eq_none (by decide) (hd'.not_mem ':' (by decide))]
    exact hsame _
  · by_cases hvalue : argument? "description" w = some []
    · rw [textArgument?_inQuotes (by decide) hvalue (hd.not_mem '\'' (by decide)) hd.ne_nil,
        textArgument?_inQuotes (by decide) hvalue (hd'.not_mem '\'' (by decide)) hd'.ne_nil]
      exact .some (.inr ⟨rfl, rfl⟩)
    · rw [inQuotes_append, inQuotes_append,
        textArgument?_append_quote (by decide) hvalue (d ++ '\'' :: v),
        textArgument?_append_quote (by decide) hvalue (d' ++ '\'' :: v)]
      exact hsame _

end Arguments

/-- Arguments that are the same but for the description, which is the same as well or is what has
been replaced, and but for the middleware if `M` does not hold. -/
structure Arguments.Redescribed (d d' : List Char) (M : Prop) (a a' : Arguments) : Prop where
  path : a'.path = a.path
  method : a'.method = a.method
  description : a'.description.getD "" = a.description.getD "" ∨
    a.description.getD "" = String.ofList d ∧ a'.description.getD "" = String.ofList d'
  middleware : M → a'.middleware = a.middleware

theorem Arguments.redescribed_ofText {l : Described} (hd : IsPlain d) (hd' : IsPlain d')
    (hu : u <:+ l.before) (hquote : '\'' ∈ u) {t t' : List Char} (ht : Requoted d d' u t t') :
    Redescribed d d' (opensList l.before = false) (ofText t) (ofText t') := by
  rcases ht with rfl | ⟨v, rfl, rfl⟩
  · exact ⟨rfl, rfl, .inl rfl, fun _ => rfl⟩
  · refine ⟨?_, ?_, ?_, fun hlist => ?_⟩
    · obtain ⟨p, hp⟩ := head?_literals_of_mem hquote
      unfold ofText
      rw [inQuotes_append, inQuotes_append, hp, hp]
    · unfold ofText
      rw [method_requoted hd hd' hu]
    · have hrel := description_requoted (u := u) (v := v) hd hd'
      unfold ofText
      cases hfound : Text.firstAt? (textArgument? "description") (u ++ (inQuotes d ++ v)) <;>
        cases hfound' : Text.firstAt? (textArgument? "description") (u ++ (inQuotes d' ++ v)) <;>
        rw [hfound, hfound'] at hrel
      · exact .inl rfl
      · cases hrel
      · cases hrel
      · rcases Option.rel_some_some.1 hrel with rfl | ⟨rfl, rfl⟩
        · exact .inl rfl
        · exact .inr ⟨rfl, rfl⟩
    · unfold ofText
      rw [middleware_requoted hd hd' hu hlist]

end ApiReport.Route
