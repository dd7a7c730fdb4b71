import ApiReport.Proofs.Route.Commented
import ApiReport.Proofs.Route.Description.Line
import Mathlib.Data.List.Forall2

/-!
# What a description changes

A description can be read as something else: it may name a class, which then is the one of the
routes below; it may stand in a list of middleware that has been opened in front of it; and it may
be the first quoted text of a group attribute. In every other respect it is only a description, and
another one in its place changes the description of this one route at most: two scans that differ
in their group and their class go on to differ in nothing else.

Key definitions: `Route.Scan.Agrees`, `Route.Agrees`, `Route.Redescribed`.
Key theorems: `Route.Scan.Agrees.next`, `Route.Scan.Agrees.annotatedFrom`,
`Route.annotated_of_redescribed`, `Route.not_only_description`.
-/
namespace ApiReport.Route

variable {d d' : List Char}

/-! ### What a scan hands on -/

/-- Scans at the same place, with the same group if `G` holds and the same class if `C` does. -/
structure Scan.Agrees (G C : Prop) (s s' : Scan) : Prop where
  place : s'.place = s.place
  group : G → s'.group = s.group
  owner : C → s'.owner = s.owner

/-- Routes that are the same but for the path if `G` does not hold, and but for the controller if
`C` does not. -/
structure Agrees (G C : Prop) (r r' : Route) : Prop where
  others : { r' with path := r.path, controller := r.controller } = r
  path : G → r'.path = r.path
  controller : C → r'.controller = r.controller

/-- Routes that are the same but for the description, which is the same as well or is what has been
replaced, and but for the path, the controller and the middleware if `G`, `C` and `M` do not hold.
-/
structure Redescribed (d d' : List Char) (G C M : Prop) (r r' : Route) : Prop where
  others : { r' with
    path := r.path
    description := r.description
    controller := r.controller
    middleware := r.middleware } = r
  path : G → r'.path = r.path
  description : r'.description = r.description ∨
    r.description = String.ofList d ∧ r'.description = String.ofList d'
  controller : C → r'.controller = r.controller
  middleware : M → r'.middleware = r.middleware

section Scan

variable {G C M : Prop} {s s' : Scan} {r r' : Route} {line : List Char}
  {before rest rest' : List (List Char)}

theorem Agrees.eq (h : Agrees G C r r') (hG : G) (hC : C) : r' = r := by
  rw [← h.others, ← h.path hG, ← h.controller hC]

theorem Redescribed.eq (h : Redescribed d d' G C M r r') (hG : G) (hC : C) (hM : M) :
    r' = { r with description := r'.description } := by
  rw [← h.others, ← h.path hG, ← h.controller hC, ← h.middleware hM]

theorem Scan.Agrees.next (h : s.Agrees G C s') (line : List Char) :
    (s.next line).Agrees G C (s'.next line) := by
  unfold Scan.next
  rw [h.place]
  obtain ⟨place, commented⟩ := s.place.step line
  cases commented with
  | true => exact ⟨rfl, h.group, h.owner⟩
  | false =>
    refine ⟨rfl, fun hG => ?_, fun hC => ?_⟩
    · exact congrArg (groupPath? line).getD (h.group hG)
    · exact congrArg (className? line).getD (h.owner hC)

theorem Scan.Agrees.route (h : s.Agrees G C s') (source : String) (a : Arguments)
    (following : List (List Char)) :
    Route.Agrees G C (s.route source a following) (s'.route source a following) := by
  unfold Scan.route
  refine ⟨rfl, fun hG => ?_, fun hC => ?_⟩
  · rw [h.group hG]
  · rw [h.owner hC]

theorem Scan.Agrees.redescribed_route (h : s.Agrees G C s') {a a' : Arguments}
    (ha : a.Redescribed d d' M a') (source : String) (following : List (List Char)) :
    Redescribed d d' G C M (s.route source a following) (s'.route source a' following) := by
  unfold Scan.route
  refine ⟨?_, fun hG => ?_, ?_, fun hC => ?_, ha.middleware⟩
  · rw [ha.method]
  · rw [h.group hG, ha.path]
  · exact ha.description
  · rw [h.owner hC]

/-- By induction on the lines, at each of which the scans go on to agree. -/
theorem Scan.Agrees.annotatedFrom (source : String) : ∀ (lines : List (List Char)) {s s' : Scan},
    s.Agrees G C s' → List.Forall₂ (Route.Agrees G C) (annotatedFrom source s lines)
      (annotatedFrom source s' lines)
  | [], _, _, _ => .nil
  | line :: following, s, s', h => by
    have ih := annotatedFrom source following (h.next line)
    have hdeclared : List.Forall₂ (Route.Agrees G C)
        (s.declared? source line following).toList (s'.declared? source line following).toList := by
      unfold Scan.declared?
      rw [h.place]
      split
      · exact .nil
      · cases routeAttribute? line with
        | none => exact .nil
        | some text => exact .cons ((h.next line).route source _ following) .nil
    exact List.rel_append hdeclared ih

/-- A live line is read from where the scan stands, and leaves it there. -/
theorem Scan.Describes.next_of_isLive (h : s.Describes before) (hlive : isLive before line = true) :
    s.next line = { s with
      group := (groupPath? line).getD s.group
      owner := (className? line).getD s.owner } := by
  have hmark : holdsMark line = false := by
    unfold isLive at hlive
    simp only [Bool.and_eq_true, Bool.not_eq_true'] at hlive
    exact hlive.1.1
  unfold Scan.next
  rw [step_eq h.place, hlive, endsInCode_concat, hmark]
  simp only [Bool.false_eq_true, if_false, Bool.not_true, ← h.place]

theorem Scan.Describes.declared?_of_isLive (h : s.Describes before)
    (hlive : isLive before line = true) (source : String) (following : List (List Char)) :
    s.declared? source line following = (routeAttribute? line).map fun text =>
      (s.next line).route source (Arguments.ofText text) following := by
  rw [Scan.declared?, step_eq h.place, hlive]
  rfl

/-- Behind a line with either description, scans agree. -/
theorem Scan.Describes.agrees_line {l : Described} (h : s.Describes before) (hd : IsPlain d)
    (hd' : IsPlain d') (hlive : isLive before (l.line d) = true) :
    (s.next (l.line d)).Agrees (opensGroup l.before = false)
      (className? (l.line d) = className? (l.line d')) (s.next (l.line d')) := by
  rw [h.next_of_isLive hlive, h.next_of_isLive ((isLive_line hd hd' before).trans hlive)]
  refine ⟨rfl, fun hgroup => ?_, fun hclass => ?_⟩
  · rw [groupPath?_line hd hd' hgroup]
  · rw [hclass]

/-- Of the lines behind it, an attribute reads nothing but the functions. -/
theorem Scan.declared?_congr (h : rest.map functionName? = rest'.map functionName?) (s : Scan)
    (source : String) (line : List Char) :
    s.declared? source line rest = s.declared? source line rest' := by
  unfold Scan.declared? Scan.route
  rw [handlerAmong?_congr h]

/-- Lines declare the same in front of two continuations with the same functions. -/
theorem exists_annotatedFrom_append (h : rest.map functionName? = rest'.map functionName?)
    (source : String) : ∀ (lines : List (List Char)) (s : Scan), ∃ above,
      annotatedFrom source s (lines ++ rest) =
        above ++ annotatedFrom source (lines.foldl Scan.next s) rest ∧
      annotatedFrom source s (lines ++ rest') =
        above ++ annotatedFrom source (lines.foldl Scan.next s) rest'
  | [], s => ⟨[], rfl, rfl⟩
  | line :: lines, s => by
    obtain ⟨above, habove, habove'⟩ := exists_annotatedFrom_append h source lines (s.next line)
    have hmap : (lines ++ rest).map functionName? = (lines ++ rest').map functionName? := by
      rw [List.map_append, List.map_append, h]
    refine ⟨(s.declared? source line (lines ++ rest)).toList ++ above, ?_, ?_⟩
    · rw [List.cons_append, annotatedFrom, habove, List.append_assoc]
      rfl
    · rw [List.cons_append, annotatedFrom, habove', List.append_assoc,
        s.declared?_congr hmap source line]
      rfl

end Scan

/-! ### What the text declares -/

/-- **What a new description changes.** Let a live line hold a route attribute with a description,
and let the description be replaced by another one. The line declares a route with either. The
routes above it stay as they are, and so do this route and those below it, but for the description
of this route; but for its middleware, if a list is open where the description stands; but for the
paths, if a group attribute is; and but for the controllers, if the line then names another class
first. -/
theorem annotated_of_redescribed {l : Described} {text text' : List Char}
    {before behind : List (List Char)} (hd : IsPlain d) (hd' : IsPlain d')
    (hold : Text.SplitsInto text (before ++ l.line d :: behind))
    (hnew : Text.SplitsInto text' (before ++ l.line d' :: behind))
    (hlive : isLive before (l.line d) = true) (source : String) :
    ∃ above r r' below below',
      annotated source text = above ++ r :: below ∧
      annotated source text' = above ++ r' :: below' ∧
      declaredAt? source (before ++ l.line d :: behind) before.length = some r ∧
      Redescribed d d' (opensGroup l.before = false)
        (className? (l.line d) = className? (l.line d')) (opensList l.before = false) r r' ∧
      below.Forall₂ (Agrees (opensGroup l.before = false)
        (className? (l.line d) = className? (l.line d'))) below' ∧
      (opensGroup l.before = false → className? (l.line d) = className? (l.line d') →
        opensList l.before = false →
        r' = { r with description := r'.description } ∧ below' = below) := by
  have hlive' : isLive before (l.line d') = true := (isLive_line hd hd' before).trans hlive
  have hs : (before.foldl Scan.next {}).Describes before := Scan.describes_nil.foldl
  obtain ⟨u, t, t', hu, hquote, hreplaced, ht, ht'⟩ := routeAttribute?_line (l := l) hd hd'
  have hscan := hs.agrees_line hd hd' hlive
  have hroute := hscan.redescribed_route (Arguments.redescribed_ofText hd hd' hu hquote hreplaced)
    source behind
  have hbelow := Scan.Agrees.annotatedFrom source behind hscan
  -- the lines above read functions only, of which the descriptions declare none
  have hfunctions : (l.line d :: behind).map functionName? =
      (l.line d' :: behind).map functionName? := by
    rw [List.map_cons, List.map_cons, functionName?_line hd hd']
  obtain ⟨above, habove, habove'⟩ := exists_annotatedFrom_append hfunctions source before {}
  have hr := hs.declared?_of_isLive hlive source behind
  have hr' := hs.declared?_of_isLive hlive' source behind
  rw [ht, Option.map_some] at hr
  rw [ht', Option.map_some] at hr'
  rw [annotatedFrom, hr] at habove
  rw [annotatedFrom, hr'] at habove'
  unfold annotated
  rw [← Text.splitsInto_iff.1 hold, ← Text.splitsInto_iff.1 hnew]
  refine ⟨above, _, _, _, _, habove, habove', ?_, hroute, hbelow, fun hgroup hclass hlist => ?_⟩
  · rw [← hs.declared?_eq, hr]
  · have hsame : List.Forall₂ Eq _ _ := hbelow.imp fun r r' h => (h.eq hgroup hclass).symm
    rw [List.forall₂_eq_eq_eq] at hsame
    exact ⟨hroute.eq hgroup hclass hlist, hsame.symm⟩

/-- A description in a list that is still open is taken for the name of middleware, -/
example : (annotated "A.php" "#[Route('/a', middleware: [description: 'x'])]".toList).map
    Route.middleware = [["description: 'x"]] := by
  decide +kernel

/-- and one in a group attribute that is still open for the path of the group. -/
example : (annotated "A.php" "#[Route('/a', #[RouteGroup(description: 'x')]".toList).map
    Route.path = ["x/a"] := by
  decide +kernel

/-! ### A sample -/

/-- A line with a route attribute. -/
def sampleLine : Described where
  front := "  ".toList
  arguments := "'/a', middleware: ['m'], ".toList
  gap := " ".toList
  gap' := " ".toList
  others := ", method: 'put'".toList
  back := " // a route".toList
  quoted := by decide
  blank := ⟨by decide, by decide⟩
  unclosed := ⟨by decide, by decide⟩

/-- The line in a class, with another route below it. -/
def describedText (d : String) : List Char :=
  Text.join '\n' ["class A".toList, sampleLine.line d.toList, "#[Route('/b')]".toList]

theorem splitsInto_describedText {d : String} (h : '\n' ∉ sampleLine.line d.toList)
    (hr : (sampleLine.line d.toList).getLast? ≠ some '\r') :
    Text.SplitsInto (describedText d)
      (["class A".toList] ++ sampleLine.line d.toList :: ["#[Route('/b')]".toList]) := by
  have hlines : ∀ line ∈ ["class A".toList, sampleLine.line d.toList, "#[Route('/b')]".toList],
      '\n' ∉ line ∧ line.getLast? ≠ some '\r' := by
    rw [List.forall_mem_cons, List.forall_mem_cons, List.forall_mem_singleton]
    exact ⟨by decide, ⟨h, hr⟩, by decide⟩
  exact Text.splitsInto_join (List.cons_ne_nil _ _) hlines

/-- Neither description names a class: a blank has to follow the keyword. -/
theorem annotated_of_redescribed_sample :
    IsPlain "lists all".toList ∧ IsPlain "the class, and more".toList ∧
      isLive ["class A".toList] (sampleLine.line "lists all".toList) = true ∧
      ∃ above r r' below, annotated "A.php" (describedText "lists all") = above ++ r :: below ∧
        annotated "A.php" (describedText "the class, and more") = above ++ r' :: below ∧
        r' = { r with description := r'.description } := by
  have hd : IsPlain "lists all".toList := by decide +kernel
  have hd' : IsPlain "the class, and more".toList := by decide +kernel
  have hlive : isLive ["class A".toList] (sampleLine.line "lists all".toList) = true := by
    decide +kernel
  obtain ⟨above, r, r', below, below', h, h', -, -, -, hsame⟩ := annotated_of_redescribed hd hd'
    (splitsInto_describedText (by decide) (by decide))
    (splitsInto_describedText (by decide) (by decide)) hlive "A.php"
  have hclass : className? "lists all".toList = className? "the class, and more".toList := by decide
  obtain ⟨hr, rfl⟩ := hsame (by decide +kernel) (className?_line hclass) (by decide +kernel)
  exact ⟨hd, hd', hlive, above, r, r', below', h, h', hr⟩

/-- **A description is more than a description.** If one names a class, then the routes from its
line on are the class's. -/
theorem not_only_description :
    ¬ ∀ (source : String) (l : Described) (d d' text text' : List Char)
      (before behind : List (List Char)), IsPlain d → IsPlain d' →
      Text.SplitsInto text (before ++ l.line d :: behind) →
      Text.SplitsInto text' (before ++ l.line d' :: behind) → isLive before (l.line d) = true →
      ∃ above r r' below, annotated source text = above ++ r :: below ∧
        annotated source text' = above ++ r' :: below ∧
        r' = { r with description := r'.description } := by
  intro h
  obtain ⟨above, r, r', below, hold, hnew, hr⟩ := h "A.php" sampleLine "lists all".toList
    "lists class B".toList (describedText "lists all") (describedText "lists class B") _ _
    (by decide +kernel) (by decide +kernel)
    (splitsInto_describedText (by decide) (by decide))
    (splitsInto_describedText (by decide) (by decide)) (by decide +kernel)
  have hcontrollers : (annotated "A.php" (describedText "lists all")).map controller =
      (annotated "A.php" (describedText "lists class B")).map controller := by
    rw [hold, hnew, hr, List.map_append, List.map_append, List.map_cons, List.map_cons]
  revert hcontrollers
  decide +kernel

end ApiReport.Route
