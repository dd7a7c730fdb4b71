import ApiReport.Proofs.Route.Annotation

/-!
# What commented lines say

A scan passes over a commented line: it declares nothing, and if it holds no comment mark, then the
scan goes on behind it as it has come to it. But the handler of a route is looked for in the lines
behind the attribute whether they are commented or not. So what stands in a commented line can be
seen in handlers, and in nothing else: a function in it is the handler of an attribute above it, if
it is the first one in reach.

Key definitions: `Route.unhandled`, `Route.handlerName`, `Route.SameHandlers`.
Key theorems: `Route.annotatedFrom_append_eq_iff`, `Route.annotated_of_commented`,
`Route.not_commented_invisible`.
-/
namespace ApiReport.Route

variable {source : String} {before behind rest rest' : List (List Char)}
  {line old new : List Char} {s : Scan}

/-! ### Passing over a line -/

/-- A line that is passed over and holds no comment mark leaves the scan as it was. -/
theorem Scan.Describes.next_eq_self (h : s.Describes before) (hmark : holdsMark line = false)
    (hlive : isLive before line = false) : s.next line = s := by
  unfold Scan.next
  rw [step_eq h.place, hlive, endsInCode_concat, hmark]
  simp only [Bool.false_eq_true, if_false, Bool.not_false, if_true, ← h.place]

theorem Scan.Describes.declared?_eq_none (h : s.Describes before)
    (hlive : isLive before line = false) : s.declared? source line rest = none := by
  rw [Scan.declared?, step_eq h.place, hlive]
  rfl

theorem Scan.Describes.annotatedFrom_cons (h : s.Describes before)
    (hmark : holdsMark line = false) (hlive : isLive before line = false) :
    annotatedFrom source s (line :: rest) = annotatedFrom source s rest := by
  rw [annotatedFrom, h.declared?_eq_none hlive, h.next_eq_self hmark hlive]
  rfl

/-- A scan of lines describes all lines up to their end. -/
theorem Scan.Describes.foldl : ∀ {lines before : List (List Char)} {s : Scan},
    s.Describes before → (lines.foldl Scan.next s).Describes (before ++ lines)
  | [], before, s, h => by
    rw [List.append_nil]
    exact h
  | line :: lines, before, s, h => by
    rw [List.foldl_cons, List.append_cons]
    exact (h.next line).foldl

/-! ### Handlers -/

/-- A route without its handler. -/
def unhandled (r : Route) : Route := { r with handler := "" }

/-- The name of the handler of a route, given the lines behind its attribute; empty if there is
none. -/
def handlerName (following : List (List Char)) : List Char := (handlerAmong? following).getD []

/-- The lines behind an attribute say nothing but the handler. -/
theorem Scan.unhandled_declared? (s : Scan) (source : String) (line : List Char)
    (rest rest' : List (List Char)) :
    (s.declared? source line rest).map unhandled = (s.declared? source line rest').map unhandled := by
  unfold Scan.declared?
  split
  · rfl
  · cases routeAttribute? line <;> rfl

theorem Scan.route_eq_iff (s : Scan) (source : String) (a : Arguments) :
    s.route source a rest = s.route source a rest' ↔ handlerName rest = handlerName rest' := by
  unfold Scan.route handlerName
  simp [String.ofList_inj]

/-- Two continuations say the same to a line if it declares no route, or one with the same handler
in front of both. -/
theorem Scan.Describes.declared?_eq_iff (h : s.Describes before) (source : String) :
    s.declared? source line rest = s.declared? source line rest' ↔
      (isLive before line = true → (routeAttribute? line).isSome = true →
        handlerName rest = handlerName rest') := by
  unfold Scan.declared?
  rw [step_eq h.place]
  cases isLive before line with
  | false => simp
  | true =>
    cases routeAttribute? line with
    | none => simp
    | some text => simp [Scan.route_eq_iff]

/-! ### Two continuations of the same lines -/

/-- The attributes of some lines have the same handlers in front of two continuations, given the
lines before. -/
def SameHandlers (before lines rest rest' : List (List Char)) : Prop :=
  ∀ front line between, lines = front ++ line :: between → isLive (before ++ front) line = true →
    (routeAttribute? line).isSome = true →
    handlerName (between ++ rest) = handlerName (between ++ rest')

theorem sameHandlers_cons {lines : List (List Char)} :
    SameHandlers before (line :: lines) rest rest' ↔
      (isLive before line = true → (routeAttribute? line).isSome = true →
        handlerName (lines ++ rest) = handlerName (lines ++ rest')) ∧
      SameHandlers (before ++ [line]) lines rest rest' := by
  constructor
  · intro h
    refine ⟨fun hlive => ?_, fun front line' between hlines hlive => ?_⟩
    · exact h [] line lines rfl (by simpa using hlive)
    · refine h (line :: front) line' between (by rw [hlines]; rfl) ?_
      rwa [List.append_cons]
  · rintro ⟨hhead, htail⟩ front line' between hlines hlive
    cases front with
    | nil =>
      obtain ⟨rfl, rfl⟩ := List.cons.inj hlines
      exact hhead (by simpa using hlive)
    | cons first front =>
      obtain ⟨rfl, rfl⟩ := List.cons.inj hlines
      rw [List.append_cons] at hlive
      exact htail front line' between rfl hlive

/-- Continuations that declare the same let the lines before them declare the same but for the
handlers. -/
theorem unhandled_annotatedFrom_append (source : String) : ∀ {lines : List (List Char)} {s : Scan},
    annotatedFrom source (lines.foldl Scan.next s) rest =
      annotatedFrom source (lines.foldl Scan.next s) rest' →
    (annotatedFrom source s (lines ++ rest)).map unhandled =
      (annotatedFrom source s (lines ++ rest')).map unhandled
  | [], s, h => by rw [List.nil_append, List.nil_append]; exact congrArg _ h
  | line :: lines, s, h => by
    have ih := unhandled_annotatedFrom_append source (s := s.next line) h
    have hdeclared := s.unhandled_declared? source line (lines ++ rest) (lines ++ rest')
    rw [List.cons_append, List.cons_append, annotatedFrom, annotatedFrom, List.map_append,
      List.map_append, ih, ← Option.toList_map, ← Option.toList_map, hdeclared]

/-- The lines before declare the same altogether if and only if the handlers are the same, too. By
induction on these lines. -/
theorem annotatedFrom_append_eq_iff (source : String) :
    ∀ {lines before : List (List Char)} {s : Scan}, s.Describes before →
    annotatedFrom source (lines.foldl Scan.next s) rest =
      annotatedFrom source (lines.foldl Scan.next s) rest' →
    (annotatedFrom source s (lines ++ rest) = annotatedFrom source s (lines ++ rest') ↔
      SameHandlers before lines rest rest')
  | [], before, s, _, h => by
    refine iff_of_true h fun front line between hlines => ?_
    cases front <;> cases hlines
  | line :: lines, before, s, hs, h => by
    have ih := annotatedFrom_append_eq_iff source (hs.next line) h
    have hdeclared := s.unhandled_declared? source line (lines ++ rest) (lines ++ rest')
    have hlength : (s.declared? source line (lines ++ rest)).toList.length =
        (s.declared? source line (lines ++ rest')).toList.length := by
      have hmap := congrArg (fun d => (Option.toList d).length) hdeclared
      simpa [Option.toList_map] using hmap
    rw [sameHandlers_cons, ← ih, ← hs.declared?_eq_iff source, List.cons_append,
      List.cons_append, annotatedFrom, annotatedFrom]
    constructor
    · intro heq
      obtain ⟨hline, hlines⟩ := List.append_inj heq hlength
      have hhead := congrArg List.head? hline
      rw [Option.head?_toList, Option.head?_toList] at hhead
      exact ⟨hhead, hlines⟩
    · rintro ⟨hline, hlines⟩
      rw [hline, hlines]

theorem sameHandlers_of_functionName?_eq (before lines : List (List Char))
    (h : rest.map functionName? = rest'.map functionName?) :
    SameHandlers before lines rest rest' := by
  intro front line between _ _ _
  have hmap : (between ++ rest).map functionName? = (between ++ rest').map functionName? := by
    rw [List.map_append, List.map_append, h]
  rw [handlerName, handlerAmong?_congr hmap, handlerName]

/-! ### Commented lines -/

/-- **What a commented line says.** If a commented line without comment marks is replaced by another
one, then the same routes are declared, and all but their handlers is the same. The handlers are the
same as well if and only if every attribute above finds the same one among the lines behind it,
commented or not, and they are if both lines are read as the same function or as none. -/
theorem annotated_of_commented {text text' : List Char}
    (hold : Text.SplitsInto text (before ++ old :: behind))
    (hnew : Text.SplitsInto text' (before ++ new :: behind))
    (hmark : holdsMark old = false ∧ holdsMark new = false)
    (hlive : isLive before old = false ∧ isLive before new = false) (source : String) :
    (annotated source text).map unhandled = (annotated source text').map unhandled ∧
      (annotated source text = annotated source text' ↔
        SameHandlers [] before (old :: behind) (new :: behind)) ∧
      (functionName? old = functionName? new → annotated source text = annotated source text') := by
  have hs : (before.foldl Scan.next {}).Describes before := Scan.describes_nil.foldl
  have hbehind : annotatedFrom source (before.foldl Scan.next {}) (old :: behind) =
      annotatedFrom source (before.foldl Scan.next {}) (new :: behind) := by
    rw [hs.annotatedFrom_cons hmark.1 hlive.1, hs.annotatedFrom_cons hmark.2 hlive.2]
  have hiff := annotatedFrom_append_eq_iff source Scan.describes_nil hbehind
  have hrest := unhandled_annotatedFrom_append source hbehind
  unfold annotated
  rw [← Text.splitsInto_iff.1 hold, ← Text.splitsInto_iff.1 hnew]
  refine ⟨hrest, hiff, fun hname => hiff.2 (sameHandlers_of_functionName?_eq _ _ ?_)⟩
  rw [List.map_cons, List.map_cons, hname]

/-! ### A sample -/

/-- A function with an attribute, and a line between the two. -/
def attributed (between : String) : List Char :=
  Text.join '\n' ["#[Route('/a')]".toList, between.toList, "public function show() \x7b\x7d".toList]

theorem splitsInto_attributed {between : String} (h : '\n' ∉ between.toList)
    (hr : between.toList.getLast? ≠ some '\r') :
    Text.SplitsInto (attributed between) (["#[Route('/a')]".toList] ++
      between.toList :: ["public function show() \x7b\x7d".toList]) := by
  have hlines : ∀ line ∈ ["#[Route('/a')]".toList, between.toList,
      "public function show() \x7b\x7d".toList], '\n' ∉ line ∧ line.getLast? ≠ some '\r' := by
    rw [List.forall_mem_cons, List.forall_mem_cons, List.forall_mem_singleton]
    exact ⟨by decide, ⟨h, hr⟩, by decide⟩
  exact Text.splitsInto_join (List.cons_ne_nil _ _) hlines

/-- A comment without a function is replaced by another one. -/
theorem annotated_of_commented_sample :
    (holdsMark "// function".toList = false ∧ holdsMark " * class A".toList = false) ∧
      (isLive ["#[Route('/a')]".toList] "// function".toList = false ∧
        isLive ["#[Route('/a')]".toList] " * class A".toList = false) ∧
      functionName? "// function".toList = functionName? " * class A".toList ∧
      annotated "A.php" (attributed "// function") = annotated "A.php" (attributed " * class A") := by
  have hmark : holdsMark "// function".toList = false ∧ holdsMark " * class A".toList = false := by
    decide
  have hlive : isLive ["#[Route('/a')]".toList] "// function".toList = false ∧
      isLive ["#[Route('/a')]".toList] " * class A".toList = false := by decide
  have hname : functionName? "// function".toList = functionName? " * class A".toList := by
    decide +kernel
  obtain ⟨-, -, hsame⟩ := annotated_of_commented (splitsInto_attributed (by decide) (by decide))
    (splitsInto_attributed (by decide) (by decide)) hmark hlive "A.php"
  exact ⟨hmark, hlive, hname, hsame hname⟩

/-- **Commented lines are not invisible.** A function that has been commented out is the handler of
the attribute above it. -/
theorem not_commented_invisible :
    ¬ ∀ (source : String) (text text' : List Char) (before behind : List (List Char))
      (old new : List Char), Text.SplitsInto text (before ++ old :: behind) →
      Text.SplitsInto text' (before ++ new :: behind) →
      holdsMark old = false ∧ holdsMark new = false →
      isLive before old = false ∧ isLive before new = false →
      annotated source text = annotated source text' := by
  intro h
  have hsame := h "A.php" (attributed "// public function old() \x7b\x7d") (attributed "// removed")
    _ _ _ _ (splitsInto_attributed (by decide) (by decide))
    (splitsInto_attributed (by decide) (by decide)) (by decide) (by decide)
  have hold : (annotated "A.php" (attributed "// public function old() \x7b\x7d")).map handler =
      ["old"] := by decide +kernel
  have hnew : (annotated "A.php" (attributed "// removed")).map handler = ["show"] := by
    decide +kernel
  rw [hsame, hnew] at hold
  revert hold
  decide

end ApiReport.Route
