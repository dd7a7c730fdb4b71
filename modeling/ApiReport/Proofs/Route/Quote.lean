import ApiReport.Proofs.Route.Pattern
import ApiReport.Proofs.Text.Margin

/-!
# Patterns at a quote

No keyword, no name and no colon is a quote. So a keyword with its name and the name of an argument
are read in front of a quote or behind it, and never across one: a line says in front of a quote
what it says without the rest. The other patterns hold quoted texts and go on behind a quote. A
quoted text that starts in front of it ends there or sooner, whatever follows; a list in brackets
does so if it is closed in front of the quote; and the arguments of an attribute take up all that
is between the quote and the next one.

Key definitions: `Route.closed?`.
Key theorems: `Route.className?_inQuotes`, `Route.functionName?_inQuotes`,
`Route.argument?_append_quote`, `Route.textArgument?_append_quote`,
`Route.listArgument?_append_quote`, `Route.attribute?_rel`.
-/
namespace ApiReport.Route

open Text (IsMargin)

variable {α : Type} {read : List Char → Option α} {name keyword : String}
  {u v w rest d d' : List Char}

theorem inQuotes_append (d rest : List Char) :
    inQuotes d ++ rest = '\'' :: (d ++ '\'' :: rest) := by
  simp [inQuotes]

theorem skipBlanks_append_quote (u rest : List Char) :
    Text.skipBlanks (u ++ '\'' :: rest) = Text.skipBlanks u ++ '\'' :: rest :=
  (span_append (.inr rfl)).2

/-- A search passes over a quoted text if nothing can be read in it or at its quotes. -/
theorem firstAt?_inQuotes (h : ∀ w, w <:+ '\'' :: d → read (w ++ '\'' :: rest) = none) :
    Text.firstAt? read (inQuotes d ++ rest) = Text.firstAt? read rest := by
  refine Text.firstAt?_append fun w hne hw => ?_
  rcases List.suffix_concat_iff.1 hw with rfl | ⟨w, rfl, hwd⟩
  · exact (hne rfl).elim
  · rw [← List.append_cons]
    exact h w hwd

/-! ### Names behind keywords -/

theorem nameAfter?_append_quote (hkeyword : '\'' ∉ keyword.toList) (u rest : List Char) :
    nameAfter? keyword (u ++ '\'' :: rest) =
      (nameAfter? keyword u).map fun r => (r.1, r.2 ++ '\'' :: rest) := by
  unfold nameAfter?
  rw [Text.after?_append_cons hkeyword]
  cases Text.after? keyword.toList u with
  | none => rfl
  | some behind =>
    obtain ⟨htake, hdrop⟩ : (Text.skipBlanks behind ++ '\'' :: rest).takeWhile isNameChar =
          (Text.skipBlanks behind).takeWhile isNameChar ∧
        (Text.skipBlanks behind ++ '\'' :: rest).dropWhile isNameChar =
          (Text.skipBlanks behind).dropWhile isNameChar ++ '\'' :: rest :=
      span_append (.inr rfl)
    have hlength : (Text.skipBlanks behind ++ '\'' :: rest).length <
        (behind ++ '\'' :: rest).length ↔ (Text.skipBlanks behind).length < behind.length := by
      simp only [List.length_append]
      omega
    simp only [Option.map_some, Option.bind_eq_bind, Option.bind_some, skipBlanks_append_quote,
      htake, hdrop, hlength]
    split <;> rfl

/-- What follows a name stands at the end of the text. -/
theorem suffix_of_nameAfter? {r : List Char × List Char} (h : nameAfter? keyword u = some r) :
    r.2 <:+ u := by
  unfold nameAfter? at h
  cases hafter : Text.after? keyword.toList u with
  | none =>
    rw [hafter] at h
    cases h
  | some behind =>
    simp only [hafter, Option.bind_eq_bind, Option.bind_some] at h
    split at h
    · obtain rfl := Option.some.inj h
      have hbehind : behind <:+ u := Text.suffix_of_after? hafter
      exact ((List.dropWhile_suffix _).trans (Text.skipBlanks_suffix behind)).trans hbehind
    · cases h

theorem className?_append_quote (u rest : List Char) :
    className? (u ++ '\'' :: rest) = (className? u).or (className? rest) := by
  refine Text.firstAt?_append_cons_or (fun w _ => ?_) rfl
  rw [nameAfter?_append_quote (by decide), Option.map_map]
  rfl

theorem functionName?_append_quote (u rest : List Char) :
    functionName? (u ++ '\'' :: rest) = (functionName? u).or (functionName? rest) := by
  refine Text.firstAt?_append_cons_or (fun w _ => ?_) rfl
  rw [nameAfter?_append_quote (by decide)]
  cases nameAfter? "function" w with
  | none => rfl
  | some found =>
    simp only [Option.map_some, Option.bind_eq_bind, Option.bind_some, skipBlanks_append_quote]
    rw [Text.after?_append_cons (by decide)]
    cases Text.after? ['('] (Text.skipBlanks found.2) <;> rfl

/-- A line names the class that is named first in front of a quoted text, in it, or behind it. -/
theorem className?_inQuotes (u d rest : List Char) :
    className? (u ++ (inQuotes d ++ rest)) =
      (className? u).or ((className? d).or (className? rest)) := by
  rw [inQuotes_append, className?_append_quote, className?_append_quote]

theorem functionName?_eq_none (hu : '(' ∉ u) : functionName? u = none := by
  unfold functionName?
  rw [← List.append_nil u, Text.firstAt?_append]
  · rfl
  · intro w _ hw
    rw [List.append_nil]
    cases hname : nameAfter? "function" w with
    | none => rfl
    | some found =>
      cases hparen : Text.after? ['('] (Text.skipBlanks found.2) with
      | none =>
        simp only [Option.bind_eq_bind, Option.bind_some, hparen]
        rfl
      | some behind =>
        have hmem : '(' ∈ Text.skipBlanks found.2 := by
          rw [Text.after?_eq_some_iff.1 hparen]
          exact List.mem_cons_self
        have hsuffix := (Text.skipBlanks_suffix _).trans (suffix_of_nameAfter? hname)
        exact (hu ((hsuffix.trans hw).subset hmem)).elim

/-- No function is declared in a quoted text without a parenthesis. -/
theorem functionName?_inQuotes (hd : '(' ∉ d) (u rest : List Char) :
    functionName? (u ++ (inQuotes d ++ rest)) = (functionName? u).or (functionName? rest) := by
  rw [inQuotes_append, functionName?_append_quote, functionName?_append_quote,
    functionName?_eq_none hd, Option.none_or]

/-! ### Arguments -/

theorem argument?_append_quote (hname : '\'' ∉ name.toList) (u rest : List Char) :
    argument? name (u ++ '\'' :: rest) = (argument? name u).map (· ++ '\'' :: rest) := by
  unfold argument?
  rw [Text.after?_append_cons hname]
  cases Text.after? name.toList u with
  | none => rfl
  | some behind =>
    simp only [Option.map_some, Option.bind_eq_bind, Option.bind_some, skipBlanks_append_quote]
    rw [Text.after?_append_cons (by decide)]
    cases Text.after? [':'] (Text.skipBlanks behind) with
    | none => rfl
    | some value => simp [skipBlanks_append_quote]

theorem argument?_eq_none (hu : ':' ∉ u) : argument? name u = none := by
  unfold argument?
  cases hafter : Text.after? name.toList u with
  | none => rfl
  | some behind =>
    cases hcolon : Text.after? [':'] (Text.skipBlanks behind) with
    | none =>
      simp only [Option.bind_eq_bind, Option.bind_some, hcolon]
      rfl
    | some value =>
      have hmem : ':' ∈ Text.skipBlanks behind := by
        rw [Text.after?_eq_some_iff.1 hcolon]
        exact List.mem_cons_self
      have hbehind : behind <:+ u := Text.suffix_of_after? hafter
      exact (hu (((Text.skipBlanks_suffix behind).trans hbehind).subset hmem)).elim

/-- The name of an argument at the end of a text stands there with its colon and blanks. -/
theorem exists_of_argument?_nil (h : argument? name u = some []) :
    ∃ g g', IsMargin g ∧ IsMargin g' ∧ u = name.toList ++ (g ++ ':' :: g') := by
  unfold argument? at h
  obtain ⟨behind, hafter, h⟩ := Option.bind_eq_some_iff.1 h
  obtain ⟨value, hcolon, h⟩ := Option.bind_eq_some_iff.1 h
  have hvalue : IsMargin value := List.dropWhile_eq_nil_iff.1 (Option.some.inj h)
  obtain ⟨g, hg, hbehind⟩ := Text.exists_margin_trimStart behind
  have hskip : Text.trimStart behind = ':' :: value := Text.after?_eq_some_iff.1 hcolon
  refine ⟨g, value, hg, hvalue, ?_⟩
  rw [Text.after?_eq_some_iff.1 hafter, ← hskip, ← hbehind]

/-- No argument starts in a quoted text without a colon. -/
theorem firstAt?_inQuotes_argument (hread : ∀ cs, argument? name cs = none → read cs = none)
    (hname : '\'' ∉ name.toList) (hd : ':' ∉ d) :
    Text.firstAt? read (inQuotes d ++ rest) = Text.firstAt? read rest := by
  refine firstAt?_inQuotes fun w hw => hread _ ?_
  have hcolon : ':' ∉ w := fun hmem =>
    hd ((List.mem_cons.1 (hw.subset hmem)).resolve_left (by decide))
  rw [argument?_append_quote hname, argument?_eq_none hcolon, Option.map_none]

/-- A quoted text that starts in front of a quote ends there or sooner. -/
theorem exists_quoted? (u : List Char) :
    ∃ p, ∀ rest, ∃ behind, quoted? ('\'' :: (u ++ '\'' :: rest)) = some (p, behind) := by
  have hread : ∀ {p rest : List Char}, '\'' ∉ p →
      quoted? ('\'' :: (p ++ '\'' :: rest)) = some (p, rest) := by
    intro p rest hp
    rw [← inQuotes_append, quoted?_inQuotes hp]
  by_cases hu : '\'' ∈ u
  · obtain ⟨p, b, rfl, hp⟩ := List.eq_append_cons_of_mem hu
    refine ⟨p, fun rest => ⟨b ++ '\'' :: rest, ?_⟩⟩
    rw [List.append_assoc, List.cons_append, hread hp]
  · exact ⟨u, fun rest => ⟨rest, hread hu⟩⟩

/-- The first quoted text of a text that holds a quote is known at the next quote. -/
theorem head?_literals_of_mem (hu : '\'' ∈ u) :
    ∃ p, ∀ rest, (literals (u ++ '\'' :: rest)).head? = some p := by
  obtain ⟨a, b, rfl, ha⟩ := List.eq_append_cons_of_mem hu
  obtain ⟨p, hp⟩ := exists_quoted? b
  refine ⟨p, fun rest => ?_⟩
  obtain ⟨behind, hread⟩ := hp rest
  rw [List.append_assoc, List.cons_append, literals_append ha, literals, Text.allAt, hread]
  dsimp only
  split <;> rfl

/-- The value of an argument is a quoted text that starts right behind its name. -/
theorem textArgument?_inQuotes (hname : '\'' ∉ name.toList) (hu : argument? name u = some [])
    (hd : '\'' ∉ d) (hne : d ≠ []) : textArgument? name (u ++ (inQuotes d ++ rest)) = some d := by
  rw [inQuotes_append, textArgument?, argument?_append_quote hname, hu, ← inQuotes_append]
  simp only [Option.map_some, Option.bind_eq_bind, Option.bind_some, List.nil_append,
    quotedWord?_inQuotes hd hne]
  rfl

/-- What follows a quote does not matter to an argument that has something of its value in front of
the quote. -/
theorem textArgument?_append_quote (hname : '\'' ∉ name.toList) (hu : argument? name u ≠ some [])
    (rest : List Char) : textArgument? name (u ++ '\'' :: rest) = textArgument? name (u ++ ['\'']) := by
  unfold textArgument?
  rw [argument?_append_quote hname, argument?_append_quote hname]
  cases harg : argument? name u with
  | none => rfl
  | some value =>
    cases value with
    | nil => exact (hu harg).elim
    | cons c value =>
      simp only [Option.map_some, Option.bind_eq_bind, Option.bind_some, List.cons_append,
        quotedWord?]
      by_cases hc : c = '\''
      · subst hc
        obtain ⟨p, hp⟩ := exists_quoted? value
        obtain ⟨behind, hread⟩ := hp rest
        obtain ⟨behind', hread'⟩ := hp []
        rw [hread, hread', Option.filter_some, Option.filter_some]
        split <;> rfl
      · simp only [quoted?, Text.after?, if_neg hc]

/-- What follows a quote does not matter to a list that is closed in front of the quote. -/
theorem listArgument?_append_quote (hname : '\'' ∉ name.toList)
    (hu : ∀ value, argument? name u = some ('[' :: value) → ']' ∈ value) (rest : List Char) :
    listArgument? name (u ++ '\'' :: rest) = listArgument? name u := by
  unfold listArgument?
  rw [argument?_append_quote hname]
  cases harg : argument? name u with
  | none => rfl
  | some value =>
    cases value with
    | nil => rfl
    | cons c value =>
      simp only [Option.map_some, Option.bind_eq_bind, Option.bind_some, List.cons_append]
      by_cases hc : c = '['
      · subst hc
        obtain ⟨a, b, rfl, ha⟩ := List.eq_append_cons_of_mem (hu value harg)
        have hread : ∀ z, bracketed? ('[' :: (a ++ ']' :: z)) = some (a, z) :=
          fun z => bracketed?_append ha
        rw [List.append_assoc, List.cons_append, hread, hread]
        rfl
      · simp only [bracketed?, Text.after?, if_neg hc]

/-! ### Attributes -/

/-- The arguments in front of the closing parenthesis of an attribute. -/
def closed? (cs : List Char) : Option (List Char) :=
  (Text.after? [')', ']'] (cs.dropWhile (· != ')'))).map fun _ => cs.takeWhile (· != ')')

theorem attribute?_eq (name : String) (cs : List Char) :
    attribute? name cs = (Text.after? (attributeStart name) cs).bind closed? := by
  unfold attribute? closed?
  rw [← attributeStart, Option.bind_eq_bind]
  congr 1
  funext body
  cases Text.after? [')', ']'] (body.dropWhile (· != ')')) <;> rfl

theorem closed?_append (hu : ')' ∉ u) (rest : List Char) :
    closed? (u ++ rest) = (closed? rest).map (u ++ ·) := by
  have hne := bne_of_not_mem hu
  unfold closed?
  rw [List.takeWhile_append_of_pos hne, List.dropWhile_append_of_pos hne, Option.map_map]
  rfl

/-- What follows a quote does not matter to arguments with a parenthesis in front of the quote. -/
theorem closed?_append_quote (hu : ')' ∈ u) (rest : List Char) :
    closed? (u ++ '\'' :: rest) = closed? u := by
  obtain ⟨a, b, rfl, ha⟩ := List.eq_append_cons_of_mem hu
  have hne := bne_of_not_mem ha
  unfold closed?
  rw [List.append_assoc, List.cons_append, takeWhile_append_cons hne (by decide),
    dropWhile_append_cons hne (by decide), takeWhile_append_cons hne (by decide),
    dropWhile_append_cons hne (by decide), ← List.cons_append, Text.after?_append_cons (by decide),
    Option.map_map]
  rfl

/-- Two texts are the same, or the same but for a quoted text behind a start that they share. -/
def Requoted (d d' start t t' : List Char) : Prop :=
  t' = t ∨ ∃ v, t = start ++ (inQuotes d ++ v) ∧ t' = start ++ (inQuotes d' ++ v)

/-- What a quoted text changes in an attribute is the quoted text in its arguments. -/
theorem attribute?_rel {R : List Char → List Char → Prop} (hname : '\'' ∉ name.toList)
    (hd : ')' ∉ d) (hd' : ')' ∉ d')
    (hR : ∀ u, w = attributeStart name ++ u → ∀ t t', Requoted d d' u t t' → R t t') :
    Option.Rel R (attribute? name (w ++ (inQuotes d ++ rest)))
      (attribute? name (w ++ (inQuotes d' ++ rest))) := by
  have hstart : '\'' ∉ attributeStart name := by simp [attributeStart, hname]
  rw [attribute?_eq, attribute?_eq, inQuotes_append, inQuotes_append,
    Text.after?_append_cons hstart, Text.after?_append_cons hstart]
  cases hafter : Text.after? (attributeStart name) w with
  | none => exact .none
  | some u =>
    have hw := Text.after?_eq_some_iff.1 hafter
    rw [Option.map_some, Option.bind_some, Option.map_some, Option.bind_some]
    by_cases hu : ')' ∈ u
    · rw [closed?_append_quote hu, closed?_append_quote hu]
      cases closed? u with
      | none => exact .none
      | some t => exact .some (hR u hw t t (.inl rfl))
    · have hquoted : ∀ {e : List Char}, ')' ∉ e →
          closed? (u ++ '\'' :: (e ++ '\'' :: rest)) =
            (closed? rest).map fun v => u ++ (inQuotes e ++ v) := by
        intro e he
        have hfront : ')' ∉ u ++ inQuotes e :=
          Text.not_mem_append hu (not_mem_inQuotes (by decide) he)
        rw [← inQuotes_append, ← List.append_assoc, closed?_append hfront]
        simp only [List.append_assoc]
      rw [hquoted hd, hquoted hd']
      cases closed? rest with
      | none => exact .none
      | some v => exact .some (hR u hw _ _ (.inr ⟨v, rfl, rfl⟩))

/-- No attribute starts in a quoted text without a bracket. -/
theorem firstAt?_inQuotes_attribute (hname : '\'' ∉ name.toList) (hd : '[' ∉ d)
    (rest : List Char) :
    Text.firstAt? (attribute? name) (inQuotes d ++ rest) = Text.firstAt? (attribute? name) rest := by
  refine firstAt?_inQuotes fun w hw => ?_
  have hstart : '\'' ∉ attributeStart name := by simp [attributeStart, hname]
  rw [attribute?_eq, Text.after?_append_cons hstart]
  cases hafter : Text.after? (attributeStart name) w with
  | none => rfl
  | some u =>
    have hmem : '[' ∈ w := by
      rw [Text.after?_eq_some_iff.1 hafter]
      simp [attributeStart]
    exact (hd ((List.mem_cons.1 (hw.subset hmem)).resolve_left (by decide))).elim

end ApiReport.Route
