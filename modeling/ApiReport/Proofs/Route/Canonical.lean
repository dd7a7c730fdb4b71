import ApiReport.Proofs.Route.Annotation
import ApiReport.Proofs.Route.Canonical.Layout

/-!
# Canonical source files are read back

Every line of a canonical source file says one thing at most: the group, the class, or a route. So
the scan finds exactly the routes that were laid out. Group and class are given anew by each
controller, so the routes of one controller never take those of another.

Key definitions: `Says`, `IsLine`.
Key theorems: `Says.annotatedFrom_cons`, `annotatedFrom_routes`, `annotatedFrom_controllers`,
`annotated_printed`.
-/
namespace ApiReport.Route

open Text (not_mem_append)

/-! ### What a line says -/

/-- A line outside of comments gives a group, names a class and declares a route, or does not. -/
structure Says (line : List Char) (group? owner? arguments? : Option (List Char)) : Prop where
  code : Place.code.step line = (.code, false)
  group : groupPath? line = group?
  owner : className? line = owner?
  arguments : routeAttribute? line = arguments?

variable {line : List Char} {group? owner? arguments? : Option (List Char)} {s : Scan}

theorem Says.next (h : Says line group? owner? arguments?) (hs : s.place = .code) :
    s.next line = ⟨.code, group?.getD s.group, owner?.getD s.owner⟩ := by
  rw [Scan.next, hs, h.code, h.group, h.owner]
  rfl

/-- **One line.** -/
theorem Says.annotatedFrom_cons (h : Says line group? owner? arguments?) (hs : s.place = .code)
    (source : String) (following : List (List Char)) :
    annotatedFrom source s (line :: following) =
      (arguments?.map fun text =>
        (s.next line).route source (Arguments.ofText text) following).toList ++
      annotatedFrom source (s.next line) following := by
  rw [annotatedFrom, Scan.declared?, hs, h.code, h.arguments]
  rfl

/-- A line without comment marks that starts like code is code. -/
theorem step_code {c : Char} (hhead : line.head? = some c) (hblank : Text.isBlank c = false)
    (hslash : c ≠ '/') (hstar : c ≠ '*') (hopening : Text.contains "/*".toList line = false)
    (hclosing : Text.contains "*/".toList line = false) : Place.code.step line = (.code, false) := by
  obtain ⟨cs, rfl⟩ := List.head?_eq_some_iff.1 hhead
  have htrim : Text.trimStart (c :: cs) = c :: cs := List.dropWhile_cons_of_neg (by simp [hblank])
  unfold Place.step
  simp only [htrim]
  rw [show ['*', '/'] = "*/".toList by decide, hclosing, show ['/', '*'] = "/*".toList by decide,
    hopening]
  simp [List.isPrefixOf, hslash.symm, hstar.symm]

/-- A line without the characters that start comments and attributes can only name a class. -/
theorem says_of_plain {c : Char} (hhead : line.head? = some c) (hblank : Text.isBlank c = false)
    (hstar : c ≠ '*') (hslash : '/' ∉ line) (hhash : '#' ∉ line)
    (howner : className? line = owner?) : Says line none owner? none where
  code := by
    have hne : c ≠ '/' := by
      rintro rfl
      exact hslash (List.mem_of_head? hhead)
    exact step_code hhead hblank hne hstar (Text.contains_of_not_mem (c := '/') (by decide) hslash)
      (Text.contains_of_not_mem (c := '/') (by decide) hslash)
  group := groupPath?_eq_none (Text.contains_of_not_mem (c := '#') (by decide) hhash)
  owner := howner
  arguments := routeAttribute?_eq_none (Text.contains_of_not_mem (c := '#') (by decide) hhash)

/-! ### The lines of a controller -/

theorem says_openingBrace : Says "\x7b".toList none none none := by
  constructor <;> decide +kernel

theorem says_closingBrace : Says "\x7d".toList none none none := by
  constructor <;> decide +kernel

/-- A group gives its path. -/
theorem says_group {g : String} (h : IsLiteral g) :
    Says ("#[RouteGroup(" ++ quote g ++ ")]").toList (some g.toList) none none := by
  have hline : ("#[RouteGroup(" ++ quote g ++ ")]").toList =
      attributeStart "RouteGroup" ++ (inQuotes g.toList ++ [')', ']']) := by
    rw [toList_between, toList_quote]
    rfl
  have habsent : ∀ word : List Char, '\'' ∉ word →
      Text.contains word (attributeStart "RouteGroup") = false →
      Text.contains word [')', ']'] = false → Text.contains word g.toList = false →
      Text.contains word ("#[RouteGroup(" ++ quote g ++ ")]").toList = false := by
    intro word hword hstart hend hg
    rw [hline, contains_inQuotes hword, hstart, hend, hg]
    rfl
  constructor
  · exact step_code (c := '#') (by rw [hline]; rfl) (by decide) (by decide) (by decide)
      (habsent _ (by decide) (by decide) (by decide) h.contains_opening)
      (habsent _ (by decide) (by decide) (by decide) h.contains_closing)
  · have hclose : ')' ∉ inQuotes g.toList := by
      simpa [inQuotes] using h.not_mem (by decide)
    have hhead : (literals (inQuotes g.toList ++ [])).head? = some g.toList := by
      rw [literals_inQuotes (h.not_mem (by decide)), List.head?_cons]
    rw [List.append_nil] at hhead
    rw [groupPath?, hline, Text.firstAt?_of_some (attribute?_append hclose), Option.bind_some, hhead]
  · exact className?_eq_none (habsent _ (by decide) (by decide) (by decide) h.contains_class)
  · refine routeAttribute?_eq_none (habsent _ (by decide) (by decide) (by decide) ?_)
    exact Text.contains_of_not_mem (c := '(') (by decide) (h.not_mem (by decide))

/-- A class gives its name. -/
theorem says_class {name : String} (h : IsWord name) :
    Says ("class " ++ name).toList none (some name.toList) none := by
  have hline : ("class " ++ name).toList = "class".toList ++ ' ' :: (name.toList ++ []) := by
    rw [String.toList_append, List.append_nil]
    rfl
  have habsent : ∀ c, isNameChar c = false → c ∉ "class ".toList → c ∉ ("class " ++ name).toList := by
    intro c hc hstart
    rw [String.toList_append]
    exact not_mem_append hstart (h.not_mem hc)
  refine says_of_plain (c := 'c') (by rw [hline]; rfl) (by decide) (by decide)
    (habsent '/' (by decide) (by decide)) (habsent '#' (by decide) (by decide)) ?_
  rw [className?, hline]
  refine Text.firstAt?_of_some ?_
  rw [nameAfter?_self h.characters h.nonempty rfl]
  rfl

namespace Declaration

variable {d : Declaration}

/-- The attribute of a route declares it, and says nothing else. -/
theorem says_attributeLine (h : d.IsCanonical) :
    Says d.attributeLine.toList none none (some d.arguments.toList) := by
  constructor
  · exact step_code (c := '#') (by rw [toList_attributeLine]; rfl) (by decide) (by decide) (by decide)
      (contains_attributeLine (by decide) (by decide) fun s hs => (h.literals s hs).contains_opening)
      (contains_attributeLine (by decide) (by decide) fun s hs => (h.literals s hs).contains_closing)
  · refine groupPath?_eq_none (contains_attributeLine (by decide) (by decide) fun s hs => ?_)
    exact Text.contains_of_not_mem (c := '(') (by decide) ((h.literals s hs).not_mem (by decide))
  · exact className?_eq_none (contains_attributeLine (by decide) (by decide)
      fun s hs => (h.literals s hs).contains_class)
  · have hclose : ')' ∉ d.arguments.toList :=
      not_mem_arguments (by decide) fun s hs => (h.literals s hs).not_mem (by decide)
    rw [routeAttribute?, toList_attributeLine]
    exact Text.firstAt?_of_some (attribute?_append hclose)

theorem toList_functionLine (d : Declaration) :
    d.functionLine.toList =
      "public function ".toList ++ (d.handler.toList ++ "() \x7b\x7d".toList) :=
  toList_between _ _ _

/-- The words of the line, as blanks set them apart. -/
theorem toList_functionLine_words (d : Declaration) :
    d.functionLine.toList = "public".toList ++ ' ' :: ("function".toList ++
      ' ' :: (d.handler.toList ++ ("()".toList ++ ' ' :: "\x7b\x7d".toList))) :=
  toList_functionLine d

theorem functionName?_functionLine (h : d.IsCanonical) :
    functionName? d.functionLine.toList = some d.handler.toList := by
  rw [toList_functionLine_words, functionName?_append_space (by decide) (by decide)]
  refine Text.firstAt?_of_some ?_
  rw [nameAfter?_self h.handler.characters h.handler.nonempty (by decide)]
  rfl

theorem className?_functionLine (h : d.IsCanonical) : className? d.functionLine.toList = none := by
  have hblank : (d.handler.toList ++ "()".toList).any Text.isBlank = false := by
    rw [List.any_append, h.handler.any_isBlank]
    decide
  have hlast : (d.handler.toList ++ "()".toList).getLast? ≠ some 's' := by
    rw [List.getLast?_append_of_ne_nil _ (by decide)]
    decide
  rw [toList_functionLine_words, className?_append_space (by decide) (by decide),
    className?_append_space (by decide) (by decide), ← List.append_assoc,
    className?_append_space hblank hlast]
  decide

/-- A function says nothing on its own. -/
theorem says_functionLine (h : d.IsCanonical) : Says d.functionLine.toList none none none := by
  have habsent : ∀ c, isNameChar c = false → c ∉ "public function () \x7b\x7d".toList →
      c ∉ d.functionLine.toList := by
    intro c hc hlayout hmem
    rw [toList_functionLine] at hmem
    rcases List.mem_append.1 hmem with hmem | hmem
    · exact hlayout (List.mem_append_left "() \x7b\x7d".toList hmem)
    · rcases List.mem_append.1 hmem with hmem | hmem
      · exact h.handler.not_mem hc hmem
      · exact hlayout (List.mem_append_right "public function ".toList hmem)
  exact says_of_plain (c := 'p') (by rw [toList_functionLine]; rfl) (by decide) (by decide)
    (habsent '/' (by decide) (by decide)) (habsent '#' (by decide) (by decide))
    (className?_functionLine h)

end Declaration

/-! ### The lines as a whole -/

/-- The route that an attribute declares above its function. -/
theorem route_eq (c : Controller) {d : Declaration} (h : d.IsCanonical) (source : String)
    (following : List (List Char)) :
    (Scan.mk .code c.group.toList c.name.toList).route source (Arguments.ofText d.arguments.toList)
      (d.functionLine.toList :: following) = c.route source d := by
  have hhandler : handlerAmong? (d.functionLine.toList :: following) = some d.handler.toList := by
    rw [handlerAmong?, handlerReach, List.take_succ_cons, List.findSome?_cons,
      Declaration.functionName?_functionLine h]
  rw [Scan.route, Declaration.ofText_arguments h, hhandler]
  simp [Controller.route]

/-- **The routes of a controller.** By induction on the routes; the scan keeps the group and the
class of the controller all along. -/
theorem annotatedFrom_routes (c : Controller) (source : String) (following : List (List Char)) :
    ∀ ds : List Declaration, (∀ d ∈ ds, d.IsCanonical) →
    annotatedFrom source ⟨.code, c.group.toList, c.name.toList⟩
        ((ds.flatMap fun d => [d.attributeLine, d.functionLine]).map String.toList ++ following) =
      ds.map (c.route source) ++
        annotatedFrom source ⟨.code, c.group.toList, c.name.toList⟩ following
  | [], _ => rfl
  | d :: ds, h => by
    obtain ⟨hd, hds⟩ := List.forall_mem_cons.1 h
    have hattribute := Declaration.says_attributeLine hd
    have hfunction := Declaration.says_functionLine hd
    have ih := annotatedFrom_routes c source following ds hds
    rw [List.flatMap_cons, List.map_append, List.map_cons, List.map_cons, List.map_nil,
      List.append_assoc, List.cons_append, List.cons_append, List.nil_append,
      hattribute.annotatedFrom_cons rfl, hattribute.next rfl, hfunction.annotatedFrom_cons rfl,
      hfunction.next rfl]
    simp only [Option.map_some, Option.map_none, Option.getD_none, Option.toList_some,
      Option.toList_none, List.nil_append, route_eq c hd, ih]
    rfl

/-- **The controllers of a file.** By induction on the controllers; whatever the scan held before,
each of them gives group and class anew. -/
theorem annotatedFrom_controllers (source : String) : ∀ {cs : List Controller} {s : Scan},
    s.place = .code → (∀ c ∈ cs, c.IsCanonical) →
    annotatedFrom source s ((cs.flatMap Controller.lines).map String.toList) =
      cs.flatMap fun c => c.routes.map (c.route source)
  | [], _, _, _ => rfl
  | c :: cs, s, hs, h => by
    obtain ⟨hc, hcs⟩ := List.forall_mem_cons.1 h
    have hgroup := says_group hc.group
    have hclass := says_class hc.name
    have hlines : ((c :: cs).flatMap Controller.lines).map String.toList =
        ("#[RouteGroup(" ++ quote c.group ++ ")]").toList :: ("class " ++ c.name).toList ::
          "\x7b".toList :: ((c.routes.flatMap fun d => [d.attributeLine, d.functionLine]).map String.toList ++
            "\x7d".toList :: (cs.flatMap Controller.lines).map String.toList) := by
      simp [Controller.lines]
    have ih := fun s hs => annotatedFrom_controllers source (s := s) hs hcs
    rw [hlines, hgroup.annotatedFrom_cons hs, hgroup.next hs, hclass.annotatedFrom_cons rfl,
      hclass.next rfl, says_openingBrace.annotatedFrom_cons rfl, says_openingBrace.next rfl]
    simp only [Option.map_none, Option.getD_none, Option.getD_some, Option.toList_none,
      List.nil_append]
    rw [annotatedFrom_routes c source _ c.routes hc.routes,
      says_closingBrace.annotatedFrom_cons rfl, says_closingBrace.next rfl, ih _ rfl]
    rfl

/-! ### The text of a file -/

/-- A line without a line end. -/
def IsLine (line : List Char) : Prop := '\n' ∉ line ∧ line.getLast? ≠ some '\r'

instance (line : List Char) : Decidable (IsLine line) :=
  inferInstanceAs (Decidable ('\n' ∉ line ∧ line.getLast? ≠ some '\r'))

theorem isLine_append (hu : '\n' ∉ u) (hne : v ≠ []) (hv : IsLine v) : IsLine (u ++ v) := by
  refine ⟨not_mem_append hu hv.1, ?_⟩
  rw [List.getLast?_append_of_ne_nil _ hne]
  exact hv.2

theorem IsWord.isLine {s : String} (h : IsWord s) : IsLine s.toList :=
  ⟨h.not_mem (by decide), fun hlast => h.not_mem (by decide) (List.mem_of_getLast? hlast)⟩

/-- The lines of a controller hold no line end. -/
theorem isLine_of_mem {c : Controller} (h : c.IsCanonical) :
    ∀ line ∈ c.lines, IsLine line.toList := by
  have hgroup : IsLine ("#[RouteGroup(" ++ quote c.group ++ ")]").toList := by
    have hquote : '\n' ∉ inQuotes c.group.toList :=
      not_mem_inQuotes (by decide) (h.group.not_mem (by decide))
    rw [toList_between, toList_quote, ← List.append_assoc]
    exact isLine_append (not_mem_append (by decide) hquote) (by decide) (by decide)
  have hclass : IsLine ("class " ++ c.name).toList := by
    rw [String.toList_append]
    exact isLine_append (by decide) h.name.nonempty h.name.isLine
  have hattribute : ∀ d ∈ c.routes, IsLine d.attributeLine.toList := by
    intro d hd
    have harguments : '\n' ∉ d.arguments.toList := Declaration.not_mem_arguments (by decide)
      fun s hs => ((h.routes d hd).literals s hs).not_mem (by decide)
    rw [Declaration.toList_attributeLine, ← List.append_assoc]
    exact isLine_append (not_mem_append (by decide) harguments) (by decide) (by decide)
  have hfunction : ∀ d ∈ c.routes, IsLine d.functionLine.toList := by
    intro d hd
    have hhandler : '\n' ∉ d.handler.toList := (h.routes d hd).handler.not_mem (by decide)
    rw [Declaration.toList_functionLine, ← List.append_assoc]
    exact isLine_append (not_mem_append (by decide) hhandler) (by decide) (by decide)
  intro line hline
  unfold Controller.lines at hline
  simp only [List.cons_append, List.nil_append, List.mem_cons, List.mem_append, List.mem_flatMap,
    List.not_mem_nil, or_false] at hline
  rcases hline with rfl | rfl | rfl | ⟨d, hd, rfl | rfl⟩ | rfl
  · exact hgroup
  · exact hclass
  · decide
  · exact hattribute d hd
  · exact hfunction d hd
  · decide

/-- **Canonical files are read back.** The scan of a canonical file finds one route for each that
was laid out, in the order of the file, and no other. -/
theorem annotated_printed {controllers : List Controller}
    (h : ∀ c ∈ controllers, c.IsCanonical) (source : String) :
    annotated source (printed controllers).toList =
      controllers.flatMap fun c => c.routes.map (c.route source) := by
  have hprinted : (printed controllers).toList =
      Text.join '\n' ((controllers.flatMap Controller.lines).map String.toList) :=
    Text.toList_intercalate '\n' _
  rw [annotated, hprinted]
  cases controllers with
  | nil => rfl
  | cons c cs =>
    have hlines : ∀ line ∈ ((c :: cs).flatMap Controller.lines).map String.toList,
        IsLine line := by
      intro line hline
      obtain ⟨text, htext, rfl⟩ := List.mem_map.1 hline
      obtain ⟨c', hc', htext⟩ := List.mem_flatMap.1 htext
      exact isLine_of_mem (h c' hc') text htext
    rw [Text.lines_join (by simp [Controller.lines]) hlines]
    exact annotatedFrom_controllers source rfl h

/-- Two controllers, the second of which takes nothing from the first. -/
def sampleControllers : List Controller :=
  [⟨"/users", "UserController", [⟨"/\x7bid\x7d", "get", "one user, by number", [], "show"⟩,
      ⟨"", "post", "function public", ["auth", "", "rate limit"], "classify"⟩]⟩,
    ⟨"", "Status", [⟨"method", "Get", "description", ["middleware"], "function"⟩]⟩]

theorem sampleControllers_isCanonical : ∀ c ∈ sampleControllers, c.IsCanonical := by
  decide +kernel

theorem annotated_printed_sample :
    (∀ c ∈ sampleControllers, c.IsCanonical) ∧
      annotated "/app/User.php" (printed sampleControllers).toList =
        [⟨"GET", "/users/\x7bid\x7d", "one user, by number", "UserController", "show",
            "/app/User.php", [], .annotated⟩,
          ⟨"POST", "/users", "function public", "UserController", "classify", "/app/User.php",
            ["auth", "", "rate limit"], .annotated⟩,
          ⟨"GET", "method", "description", "Status", "function", "/app/User.php", ["middleware"],
            .annotated⟩] :=
  ⟨sampleControllers_isCanonical,
    (annotated_printed sampleControllers_isCanonical "/app/User.php").trans (by decide +kernel)⟩

end ApiReport.Route
