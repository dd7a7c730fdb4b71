import ApiReport.Proofs.Outcome
import ApiReport.Proofs.Route.Annotation
import ApiReport.Proofs.Route.Pattern
import ApiReport.Proofs.Text.Margin

/-!
# Annotations and the margins of lines

Every pattern starts with a character that is no blank and is complete at one, and blanks in front
of a line are passed over where its comments are found. So a scan of trimmed lines finds the same as
one of the lines themselves, and texts whose lines are the same but for their margins declare the
same: indentation, trailing blanks and line ends do not matter.

Key theorems: `Route.className?_trim`, `Route.functionName?_trim`, `Route.Place.step_trim`,
`Route.annotatedFrom_map_trim`, `Route.annotated_margins`.
-/
namespace ApiReport.Route

open Text (IsMargin IgnoresMargin)

variable {g cs rest : List Char} {name keyword : String}

/-! ### Patterns -/

/-- An attribute ends before the blanks that follow it. -/
theorem attribute?_append_margin (hname : name.toList.any Text.isBlank = false) (hg : IsMargin g)
    (cs : List Char) : attribute? name (cs ++ g) = attribute? name cs := by
  have hword : (attributeStart name).any Text.isBlank = false := by
    simp only [attributeStart, List.cons_append, List.any_cons, List.any_append, hname, List.any_nil]
    decide
  unfold attribute?
  rw [← attributeStart, Text.after?_append_margin hg hword]
  cases Text.after? (attributeStart name) cs with
  | none => rfl
  | some body =>
    simp only [Option.map_some, Option.bind_eq_bind, Option.bind_some]
    cases hclose : body.dropWhile (· != ')') with
    | nil =>
      -- the parenthesis is not among the blanks either
      have hdrop : (body ++ g).dropWhile (· != ')') = [] := by
        rw [List.dropWhile_eq_nil_iff] at hclose ⊢
        intro c hc
        rcases List.mem_append.1 hc with hc | hc
        · exact hclose c hc
        · rw [bne_iff_ne]
          rintro rfl
          have hblank := hg _ hc
          revert hblank
          decide
      rw [hdrop]
      rfl
    | cons c tail =>
      have hne : body.dropWhile (· != ')') ≠ [] := by
        rw [hclose]
        exact List.cons_ne_nil c tail
      obtain ⟨htake, hdrop⟩ := span_append (g := g) (.inl hne)
      rw [htake, hdrop, hclose, Text.after?_append_margin hg (by decide)]
      cases Text.after? [')', ']'] (c :: tail) <;> rfl

theorem skipBlanks_append (hg : IsMargin g) :
    Text.skipBlanks (rest ++ g) =
      if (Text.skipBlanks rest).isEmpty then [] else Text.skipBlanks rest ++ g :=
  Text.trimStart_append_margin hg

/-- A name ends before the blanks that follow it. -/
theorem nameAfter?_append_margin (hkeyword : keyword.toList.any Text.isBlank = false)
    (hg : IsMargin g) (cs : List Char) :
    nameAfter? keyword (cs ++ g) = (nameAfter? keyword cs).map fun r => (r.1, r.2 ++ g) := by
  have hstop : g.head?.any isNameChar = false := by
    cases g with
    | nil => rfl
    | cons c g =>
      rw [List.head?_cons, Option.any_some]
      by_contra hname
      have hblank := isBlank_of_isNameChar (Bool.not_eq_false _ ▸ hname)
      rw [hg c List.mem_cons_self] at hblank
      cases hblank
  unfold nameAfter?
  rw [Text.after?_append_margin hg hkeyword]
  cases Text.after? keyword.toList cs with
  | none => rfl
  | some rest =>
    simp only [Option.map_some, Option.bind_eq_bind, Option.bind_some, skipBlanks_append hg]
    cases Text.skipBlanks rest with
    | nil => simp
    | cons c body =>
      obtain ⟨htake, hdrop⟩ : (c :: body ++ g).takeWhile isNameChar =
            (c :: body).takeWhile isNameChar ∧
          (c :: body ++ g).dropWhile isNameChar = (c :: body).dropWhile isNameChar ++ g :=
        span_append (.inr hstop)
      have hlength : (c :: body ++ g).length < (rest ++ g).length ↔
          (c :: body).length < rest.length := by
        simp only [List.length_append]
        omega
      simp only [List.isEmpty_cons, Bool.false_eq_true, if_false, htake, hdrop, hlength]
      split <;> rfl

theorem ignoresMargin_attribute? (hname : name.toList.any Text.isBlank = false) :
    IgnoresMargin (attribute? name) where
  starts _ _ hc := Text.bind_after?_cons_of_isBlank (by decide) hc
  ends cs _ hg := attribute?_append_margin hname hg cs

/-- What starts with a name behind a keyword cannot be read at a blank. -/
theorem nameAfter?_cons_of_isBlank {c w : Char} {word : List Char}
    (hkeyword : keyword.toList = w :: word) (hw : Text.isBlank w = false)
    (hc : Text.isBlank c = true) : nameAfter? keyword (c :: cs) = none := by
  unfold nameAfter?
  rw [hkeyword]
  exact Text.bind_after?_cons_of_isBlank hw hc

/-! ### What a line says -/

theorem className?_trim (line : List Char) : className? (Text.trim line) = className? line := by
  refine IgnoresMargin.firstAt?_trim ⟨fun c cs hc => ?_, fun cs g hg => ?_⟩ line
  · rw [nameAfter?_cons_of_isBlank rfl (by decide) hc]
    rfl
  · rw [nameAfter?_append_margin (by decide) hg, Option.map_map]
    rfl

theorem functionName?_trim (line : List Char) :
    functionName? (Text.trim line) = functionName? line := by
  refine IgnoresMargin.firstAt?_trim ⟨fun c cs hc => ?_, fun cs g hg => ?_⟩ line
  · rw [nameAfter?_cons_of_isBlank rfl (by decide) hc]
    rfl
  · rw [nameAfter?_append_margin (by decide) hg]
    cases nameAfter? "function" cs with
    | none => rfl
    | some found =>
      obtain ⟨name, rest⟩ := found
      simp only [Option.map_some, Option.bind_eq_bind, Option.bind_some, skipBlanks_append hg]
      cases Text.skipBlanks rest with
      | nil => rfl
      | cons c body =>
        rw [List.isEmpty_cons, if_neg Bool.false_ne_true, Text.after?_append_margin hg (by decide)]
        cases Text.after? ['('] (c :: body) <;> rfl

theorem routeAttribute?_trim (line : List Char) :
    routeAttribute? (Text.trim line) = routeAttribute? line :=
  (ignoresMargin_attribute? (by decide)).firstAt?_trim line

theorem groupPath?_trim (line : List Char) : groupPath? (Text.trim line) = groupPath? line := by
  rw [groupPath?, (ignoresMargin_attribute? (by decide)).firstAt?_trim, groupPath?]

/-- The comment marks of a line and how it starts do not depend on its margins. -/
theorem Place.step_trim (p : Place) (line : List Char) : p.step (Text.trim line) = p.step line := by
  obtain ⟨g, hg, hline⟩ := Text.exists_margin_trimEnd (Text.trimStart line)
  rw [← Text.trim] at hline
  have hstarts : ∀ word : List Char, word.any Text.isBlank = false →
      word.isPrefixOf (Text.trim line) = word.isPrefixOf (Text.trimStart line) := by
    intro word hword
    rw [hline, Text.isPrefixOf_append_margin hg hword]
  have hcontains : ∀ w word, (w :: word).any Text.isBlank = false →
      Text.contains (w :: word) (Text.trim line) =
        Text.contains (w :: word) (Text.trimStart line) := by
    intro w word hword
    have hw : Text.isBlank w = false := by
      rw [List.any_cons, Bool.or_eq_false_iff] at hword
      exact hword.1
    rw [Text.contains_trim hword, contains_trimStart word hw]
  unfold step
  rw [Text.trimStart_trim]
  simp only [hstarts ['/', '/'] (by decide), hstarts ['*'] (by decide),
    hcontains '*' ['/'] (by decide), hcontains '/' ['*'] (by decide)]

theorem Scan.next_trim (s : Scan) (line : List Char) : s.next (Text.trim line) = s.next line := by
  unfold Scan.next
  rw [Place.step_trim, groupPath?_trim, className?_trim]

theorem handlerAmong?_map_trim (following : List (List Char)) :
    handlerAmong? (following.map Text.trim) = handlerAmong? following := by
  refine handlerAmong?_congr ?_
  rw [List.map_map]
  exact List.map_congr_left fun line _ => functionName?_trim line

/-! ### What the lines declare -/

theorem Scan.declared?_trim (s : Scan) (source : String) (line : List Char)
    (following : List (List Char)) :
    s.declared? source (Text.trim line) (following.map Text.trim) =
      s.declared? source line following := by
  unfold Scan.declared? Scan.route
  rw [Place.step_trim, routeAttribute?_trim, Scan.next_trim, handlerAmong?_map_trim]

/-- By induction on the lines, which a scan leaves in the same state with and without their margins.
-/
theorem annotatedFrom_map_trim (source : String) : ∀ (s : Scan) (lines : List (List Char)),
    annotatedFrom source s (lines.map Text.trim) = annotatedFrom source s lines
  | _, [] => rfl
  | s, line :: following => by
    rw [List.map_cons, annotatedFrom, annotatedFrom, Scan.declared?_trim, Scan.next_trim,
      annotatedFrom_map_trim source (s.next line) following]

/-- **Margins do not matter.** Texts with as many lines, and with the same of each line left by
trimming, declare the same routes. So does a text that has a carriage return put before every line
feed, and one that has each of its lines put between blanks. -/
theorem annotated_margins (source : String) :
    (∀ {a b : List Char} {ls ms : List (List Char)}, Text.SplitsInto a ls → Text.SplitsInto b ms →
      ls.map Text.trim = ms.map Text.trim → annotated source a = annotated source b) ∧
    (∀ text, annotated source (Text.withReturns text) = annotated source text) ∧
    ∀ {a b : List Char} {ls ms : List (List Char)}, Text.SplitsInto a ls → Text.SplitsInto b ms →
      ls.Forall₂ (fun line m => ∃ g g', IsMargin g ∧ IsMargin g' ∧ m = g ++ line ++ g') ms →
      annotated source a = annotated source b := by
  have htrim : ∀ {a b : List Char}, (Text.lines a).map Text.trim = (Text.lines b).map Text.trim →
      annotated source a = annotated source b := by
    intro a b h
    unfold annotated
    rw [← annotatedFrom_map_trim, h, annotatedFrom_map_trim]
  refine ⟨fun ha hb h => htrim ?_, fun text => htrim (Text.map_trim_lines_withReturns text),
    fun ha hb h => htrim ?_⟩
  · rw [← Text.splitsInto_iff.1 ha, ← Text.splitsInto_iff.1 hb, h]
  · rw [← Text.splitsInto_iff.1 ha, ← Text.splitsInto_iff.1 hb]
    refine map_eq_of_forall₂ (fun line m hm => ?_) h
    obtain ⟨g, g', hg, hg', rfl⟩ := hm
    exact (Text.trim_append hg hg').symm

/-- Other line ends and indentation, and blanks of several kinds behind the lines. -/
theorem annotated_margins_sample :
    Text.SplitsInto "#[Route('/a')]\nfunction f()".toList
        ["#[Route('/a')]".toList, "function f()".toList] ∧
      Text.SplitsInto "\t#[Route('/a')]\r\r\n  function f()\u00a0".toList
        ["\t#[Route('/a')]\r".toList, "  function f()\u00a0".toList] ∧
      annotated "A.php" "#[Route('/a')]\nfunction f()".toList =
        annotated "A.php" "\t#[Route('/a')]\r\r\n  function f()\u00a0".toList := by
  have hplain := Text.splitsInto_iff.2 (show ["#[Route('/a')]".toList, "function f()".toList] =
    Text.lines "#[Route('/a')]\nfunction f()".toList by decide +kernel)
  have hother := Text.splitsInto_iff.2 (show ["\t#[Route('/a')]\r".toList,
      "  function f()\u00a0".toList] =
    Text.lines "\t#[Route('/a')]\r\r\n  function f()\u00a0".toList by decide +kernel)
  exact ⟨hplain, hother, (annotated_margins "A.php").1 hplain hother (by decide +kernel)⟩

end ApiReport.Route
