import ApiReport.Proofs.Outcome
import ApiReport.Proofs.Route.Pattern
import ApiReport.Proofs.Text.Margin
import ApiReport.Route.Annotation
import ApiReport.Route.Registration
import ApiReport.Route.Report

/-!
# Names in a list of middleware

A list is cut at its commas, the pieces are trimmed, those that are empty are left out, and the
quotes around the others are taken off. So every piece in which something stands has a name, in the
order of the pieces, and no name starts or ends with a quote. Whether a piece is left out is decided
before its quotes are taken off: a piece of nothing but quotes has an empty name, and quotes around
blanks have a blank one. Left to themselves, the names that are not blank are those of the pieces in
which something is left (`namedPieces`).

Every route takes its middleware from one list that stands in the text, or has none, and its entry
shows these names and no others.

Key definitions: `Route.IsNameOf`, `Route.filledPieces`, `Route.namedPieces`,
`Route.IsBlankLiteral`, `Route.AreNamesOf`, `Route.middlewareLine`.
Key theorems: `Route.isNameOf_iff`, `Route.areNamesOf_iff`,
`Route.exists_items_of_mem`, `Route.filter_isMiddlewareLine`, `Route.middleware_exact`,
`Route.not_blank_dropped`.
-/
namespace ApiReport.Route

open Text (trim pieces IsMargin)

variable {cs p : List Char}

/-! ### Taking off quotes -/

theorem head?_dropQuotes (cs : List Char) : (cs.dropWhile (· == '\'')).head? ≠ some '\'' := by
  intro h
  have hhead := List.head?_dropWhile_not (· == '\'') cs
  rw [h] at hhead
  cases hhead

/-- Quotes at the start, and what is left behind them. -/
theorem exists_quotes_dropWhile (cs : List Char) :
    ∃ g, IsQuotes g ∧ cs = g ++ cs.dropWhile (· == '\'') := by
  refine ⟨cs.takeWhile (· == '\''), fun c hc => ?_, List.takeWhile_append_dropWhile.symm⟩
  simpa using List.mem_takeWhile_imp hc

/-- A text is what is left of it between quotes. -/
theorem exists_quotes (cs : List Char) :
    ∃ g g', IsQuotes g ∧ IsQuotes g' ∧ cs = g ++ unquoted cs ++ g' := by
  obtain ⟨g, hg, hstart⟩ := exists_quotes_dropWhile cs
  obtain ⟨g', hg', hend⟩ := exists_quotes_dropWhile (cs.dropWhile (· == '\'')).reverse
  refine ⟨g, g'.reverse, hg, isQuotes_reverse.2 hg', ?_⟩
  have hback := congrArg List.reverse hend
  rw [List.reverse_reverse, List.reverse_append] at hback
  calc cs = g ++ cs.dropWhile (· == '\'') := hstart
    _ = g ++ (unquoted cs ++ g'.reverse) := congrArg (g ++ ·) hback
    _ = g ++ unquoted cs ++ g'.reverse := (List.append_assoc _ _ _).symm

theorem head?_unquoted (cs : List Char) : (unquoted cs).head? ≠ some '\'' := by
  have hprefix : unquoted cs <+: cs.dropWhile (· == '\'') := by
    rw [← List.reverse_suffix, unquoted, List.reverse_reverse]
    exact List.dropWhile_suffix _
  intro h
  obtain ⟨body, hbody⟩ := List.head?_eq_some_iff.1 h
  obtain ⟨rest, hrest⟩ := hprefix
  refine head?_dropQuotes cs ?_
  rw [← hrest, hbody]
  rfl

theorem getLast?_unquoted (cs : List Char) : (unquoted cs).getLast? ≠ some '\'' := by
  rw [unquoted, List.getLast?_reverse]
  exact head?_dropQuotes _

/-- Nothing is left of quotes, and something of all other texts. -/
theorem unquoted_eq_nil_iff : unquoted cs = [] ↔ IsQuotes cs := by
  constructor
  · intro h
    obtain ⟨g, g', hg, hg', hcs⟩ := exists_quotes cs
    rw [hcs, h, List.append_nil]
    exact List.forall_mem_append.2 ⟨hg, hg'⟩
  · intro h
    rw [unquoted, isQuotes_iff.1 h]
    rfl

/-! ### Names of pieces -/

/-- What is taken as the name of a piece. -/
def nameOf (p : List Char) : String := String.ofList (unquoted (trim p))

/-- A name is what a piece holds between blanks and quotes: it has no quote at its ends, and it is
found between quotes in the trimmed piece. -/
structure IsNameOf (p : List Char) (name : String) : Prop where
  between : ∃ g g', IsQuotes g ∧ IsQuotes g' ∧ trim p = g ++ name.toList ++ g'
  head_ne : name.toList.head? ≠ some '\''
  last_ne : name.toList.getLast? ≠ some '\''

theorem isNameOf_nameOf (p : List Char) : IsNameOf p (nameOf p) := by
  rw [nameOf]
  constructor
  · rw [String.toList_ofList]
    exact exists_quotes (trim p)
  · rw [String.toList_ofList]
    exact head?_unquoted (trim p)
  · rw [String.toList_ofList]
    exact getLast?_unquoted (trim p)

/-- A piece has no other name. -/
theorem isNameOf_iff {name : String} : IsNameOf p name ↔ name = nameOf p := by
  constructor
  · intro h
    obtain ⟨g, g', hg, hg', hp⟩ := h.between
    rw [nameOf, hp, unquoted_between hg hg' h.head_ne h.last_ne, String.ofList_toList]
  · rintro rfl
    exact isNameOf_nameOf p

/-- The pieces of a list in which something stands. -/
def filledPieces (cs : List Char) : List (List Char) :=
  (pieces ',' cs).filter fun p => !(trim p).isEmpty

def isBlankName (name : String) : Bool := (trim name.toList).isEmpty

/-- The names of the pieces in which something is left when blanks and quotes are taken off. -/
def namedPieces (cs : List Char) : List String :=
  ((pieces ',' cs).filter fun p => !isBlankName (nameOf p)).map nameOf

/-- A piece in which something stands, and nothing but blanks between its quotes. -/
def IsBlankLiteral (p : List Char) : Prop := trim p ≠ [] ∧ IsMargin (unquoted (trim p))

theorem isBlankName_nameOf : isBlankName (nameOf p) = true ↔ IsMargin (unquoted (trim p)) := by
  rw [isBlankName, nameOf, String.toList_ofList, List.isEmpty_iff, Text.trim_eq_nil_iff]

/-- A piece in which nothing stands has no name. -/
theorem isBlankName_of_trim_eq_nil (h : trim p = []) : isBlankName (nameOf p) = true := by
  rw [isBlankName_nameOf, h]
  exact Text.isMargin_nil

theorem middlewareNames_eq (cs : List Char) : middlewareNames cs = (filledPieces cs).map nameOf := by
  rw [middlewareNames, Text.commaList, List.filter_map, List.map_map]
  rfl

theorem mem_filledPieces : p ∈ filledPieces cs ↔ p ∈ pieces ',' cs ∧ trim p ≠ [] := by
  rw [filledPieces, List.mem_filter, Bool.not_eq_true', List.isEmpty_eq_false_iff]

/-- What the names of a list are. -/
structure AreNamesOf (cs : List Char) (names : List String) : Prop where
  /-- Every piece in which something stands has its name. -/
  names_eq : (filledPieces cs).Forall₂ IsNameOf names
  /-- The names that are not blank are those of the pieces in which something is left. -/
  filter_eq : names.filter (fun name => !isBlankName name) = namedPieces cs
  /-- There are no other names if no piece holds quotes around blanks. -/
  eq_iff : names = namedPieces cs ↔ ∀ p ∈ pieces ',' cs, ¬ IsBlankLiteral p
  /-- A name is empty if a piece holds nothing but quotes. -/
  empty_iff : "" ∈ names ↔ ∃ p ∈ pieces ',' cs, trim p ≠ [] ∧ IsQuotes (trim p)

theorem filter_middlewareNames (cs : List Char) :
    (middlewareNames cs).filter (fun name => !isBlankName name) = namedPieces cs := by
  rw [middlewareNames_eq, List.filter_map, filledPieces, List.filter_filter, namedPieces]
  refine congrArg (List.map nameOf) (List.filter_congr fun p _ => ?_)
  rw [Function.comp_apply]
  cases hp : trim p with
  | nil => rw [isBlankName_of_trim_eq_nil hp]; rfl
  | cons c body => rw [List.isEmpty_cons, Bool.not_false, Bool.and_true]

theorem middlewareNames_eq_namedPieces_iff :
    middlewareNames cs = namedPieces cs ↔ ∀ p ∈ pieces ',' cs, ¬ IsBlankLiteral p := by
  rw [← filter_middlewareNames, eq_comm, List.filter_eq_self, middlewareNames_eq,
    List.forall_mem_map]
  constructor
  · rintro h p hp ⟨hfilled, hblank⟩
    have hname := h p (mem_filledPieces.2 ⟨hp, hfilled⟩)
    rw [isBlankName_nameOf.2 hblank] at hname
    cases hname
  · intro h p hp
    obtain ⟨hp, hfilled⟩ := mem_filledPieces.1 hp
    rw [Bool.not_eq_true', ← Bool.not_eq_true, isBlankName_nameOf]
    exact fun hblank => h p hp ⟨hfilled, hblank⟩

theorem empty_mem_middlewareNames :
    "" ∈ middlewareNames cs ↔ ∃ p ∈ pieces ',' cs, trim p ≠ [] ∧ IsQuotes (trim p) := by
  rw [middlewareNames_eq, List.mem_map]
  refine exists_congr fun p => ?_
  rw [mem_filledPieces, and_assoc, ← unquoted_eq_nil_iff]
  refine and_congr_right fun _ => and_congr_right fun _ => ?_
  rw [nameOf, ← String.toList_inj, String.toList_ofList]
  rfl

theorem areNamesOf_middlewareNames (cs : List Char) : AreNamesOf cs (middlewareNames cs) where
  names_eq := by
    rw [middlewareNames_eq, List.forall₂_map_right_iff, List.forall₂_same]
    exact fun p _ => isNameOf_nameOf p
  filter_eq := filter_middlewareNames cs
  eq_iff := middlewareNames_eq_namedPieces_iff
  empty_iff := empty_mem_middlewareNames

/-- A list has no other names. -/
theorem areNamesOf_iff {names : List String} :
    AreNamesOf cs names ↔ names = middlewareNames cs := by
  constructor
  · intro h
    have hnames : (filledPieces cs).map nameOf = names.map id := by
      refine map_eq_of_forall₂ (fun p name hname => ?_) h.names_eq
      rw [isNameOf_iff.1 hname, id]
    rw [middlewareNames_eq, hnames, List.map_id]
  · rintro rfl
    exact areNamesOf_middlewareNames cs

/-! ### Lists in a text -/

section Lists

variable {items : List Char}

theorem infix_of_bracketed? {rest : List Char} (h : bracketed? cs = some (items, rest)) :
    items <:+: cs := by
  obtain ⟨body, hbody, h⟩ := Option.bind_eq_some_iff.1 h
  obtain ⟨rest, -, h⟩ := Option.bind_eq_some_iff.1 h
  obtain ⟨rfl, -⟩ := Prod.mk.inj (Option.some.inj h)
  exact (List.takeWhile_prefix _).isInfix.trans (Text.suffix_of_after? hbody).isInfix

theorem infix_of_listArgument? {name : String} (h : listArgument? name cs = some items) :
    items <:+: cs := by
  obtain ⟨rest, hrest, h⟩ := Option.bind_eq_some_iff.1 h
  obtain ⟨⟨items, behind⟩, hitems, h⟩ := Option.bind_eq_some_iff.1 h
  obtain rfl := Option.some.inj h
  obtain ⟨behindName, hname, hrest⟩ := Option.bind_eq_some_iff.1 hrest
  obtain ⟨behindColon, hcolon, hrest⟩ := Option.bind_eq_some_iff.1 hrest
  obtain rfl := Option.some.inj hrest
  have hsuffix : Text.skipBlanks behindColon <:+ cs :=
    calc Text.skipBlanks behindColon <:+ behindColon := Text.skipBlanks_suffix _
      _ <:+ Text.skipBlanks behindName := Text.suffix_of_after? hcolon
      _ <:+ behindName := Text.skipBlanks_suffix _
      _ <:+ cs := Text.suffix_of_after? hname
  exact (infix_of_bracketed? hitems).trans hsuffix.isInfix

theorem infix_of_attribute? {name : String} (h : attribute? name cs = some items) :
    items <:+: cs := by
  obtain ⟨body, hbody, h⟩ := Option.bind_eq_some_iff.1 h
  obtain ⟨rest, -, h⟩ := Option.bind_eq_some_iff.1 h
  obtain rfl := Option.some.inj h
  exact (List.takeWhile_prefix _).isInfix.trans (Text.suffix_of_after? hbody).isInfix

theorem suffix_of_quotedWord? {word rest : List Char} (h : quotedWord? cs = some (word, rest)) :
    rest <:+ cs := by
  obtain ⟨h, -⟩ := Option.filter_eq_some_iff.1 h
  obtain ⟨body, hbody, h⟩ := Option.bind_eq_some_iff.1 h
  obtain ⟨behind, hbehind, h⟩ := Option.bind_eq_some_iff.1 h
  obtain ⟨-, rfl⟩ := Prod.mk.inj (Option.some.inj h)
  calc behind <:+ body.dropWhile (· != '\'') := Text.suffix_of_after? hbehind
    _ <:+ body := List.dropWhile_suffix _
    _ <:+ cs := Text.suffix_of_after? hbody

theorem infix_of_callArguments? {path rest : List Char}
    (h : callArguments? cs = some ((path, items), rest)) : items <:+: cs := by
  obtain ⟨call, hcall, h⟩ := Option.bind_eq_some_iff.1 h
  obtain ⟨⟨word, behind⟩, hword, h⟩ := Option.bind_eq_some_iff.1 h
  obtain ⟨list, hlist, h⟩ := Option.bind_eq_some_iff.1 h
  obtain ⟨⟨items, last⟩, hitems, h⟩ := Option.bind_eq_some_iff.1 h
  obtain ⟨h, -⟩ := Prod.mk.inj (Option.some.inj h)
  obtain ⟨-, rfl⟩ := Prod.mk.inj h
  have hsuffix : Text.skipBlanks list <:+ cs :=
    calc Text.skipBlanks list <:+ list := Text.skipBlanks_suffix _
      _ <:+ Text.skipBlanks behind := Text.suffix_of_after? hlist
      _ <:+ behind := Text.skipBlanks_suffix _
      _ <:+ call := suffix_of_quotedWord? hword
      _ <:+ cs := Text.suffix_of_after? hcall
  exact (infix_of_bracketed? hitems).trans hsuffix.isInfix

end Lists

/-- Every list is part of a text, or there is none. -/
theorem exists_items_of_ofText (cs : List Char) :
    ∃ items, items <:+: cs ∧ (Arguments.ofText cs).middleware = middlewareNames items := by
  rw [Arguments.ofText]
  dsimp only
  cases hlist : Text.firstAt? (listArgument? "middleware") cs with
  | none => exact ⟨[], List.nil_infix, rfl⟩
  | some items =>
    obtain ⟨w, hw, hitems⟩ := Text.exists_suffix_of_firstAt? hlist
    exact ⟨items, (infix_of_listArgument? hitems).trans hw.isInfix, rfl⟩

theorem exists_items_of_mem_annotatedFrom {source : String} {r : Route} :
    ∀ {s : Scan} {lines : List (List Char)}, r ∈ annotatedFrom source s lines →
      ∃ line ∈ lines, ∃ items, items <:+: line ∧ r.middleware = middlewareNames items
  | s, [], h => by cases h
  | s, line :: following, h => by
    rw [annotatedFrom, List.mem_append] at h
    rcases h with h | h
    · refine ⟨line, List.mem_cons_self, ?_⟩
      unfold Scan.declared? at h
      split at h
      · cases h
      · rw [Option.mem_toList, Option.map_eq_some_iff] at h
        obtain ⟨text, htext, rfl⟩ := h
        obtain ⟨w, hw, hattribute⟩ := Text.exists_suffix_of_firstAt? htext
        obtain ⟨items, hitems, hnames⟩ := exists_items_of_ofText text
        exact ⟨items, (hitems.trans (infix_of_attribute? hattribute)).trans hw.isInfix, hnames⟩
    · obtain ⟨line, hline, hitems⟩ := exists_items_of_mem_annotatedFrom h
      exact ⟨line, List.mem_cons_of_mem _ hline, hitems⟩

theorem exists_items_of_find? {text : List Char} {group : Group}
    (h : Group.find? text = some group) :
    ∃ items, items <:+: text ∧ group.middleware = middlewareNames items := by
  obtain ⟨w, hw, hread⟩ := Text.exists_suffix_of_firstAt? h
  obtain ⟨call, hcall, hread⟩ := Option.bind_eq_some_iff.1 hread
  obtain ⟨⟨⟨path, items⟩, rest⟩, hitems, hread⟩ := Option.bind_eq_some_iff.1 hread
  obtain rfl := Option.some.inj hread
  have hsuffix : call <:+ w := Text.suffix_of_afterAnyCase? hcall
  exact ⟨items, (infix_of_callArguments? hitems).trans (hsuffix.trans hw).isInfix, rfl⟩

/-- The middleware of a route is what a list in its text names. -/
theorem exists_items_of_mem {source : String} {text : List Char} {r : Route}
    (h : r ∈ annotated source text ∨ r ∈ registered source text) :
    ∃ items, items <:+: text ∧ r.middleware = middlewareNames items := by
  rcases h with h | h
  · obtain ⟨line, hline, items, hitems, hnames⟩ := exists_items_of_mem_annotatedFrom h
    exact ⟨items, hitems.trans ((Text.splitsInto_iff.2 rfl).infix_of_mem hline), hnames⟩
  · obtain ⟨c, -, rfl⟩ := List.mem_map.1 h
    cases hgroup : Group.find? text with
    | none => exact ⟨[], List.nil_infix, rfl⟩
    | some group => exact exists_items_of_find? hgroup

/-! ### The line on middleware -/

/-- How the line starts that names the middleware of a route. -/
def middlewareStart : String := "  - Middleware: "

/-- The line that names the middleware of a route. -/
def middlewareLine (names : List String) : String := middlewareStart ++ ", ".intercalate names

/-- A line that names the middleware of a route. -/
def IsMiddlewareLine (line : String) : Prop := middlewareStart.toList <+: line.toList

instance : DecidablePred IsMiddlewareLine := fun _ => inferInstanceAs (Decidable (_ <+: _))

theorem isMiddlewareLine_middlewareLine (names : List String) :
    IsMiddlewareLine (middlewareLine names) := by
  rw [IsMiddlewareLine, middlewareLine, String.toList_append]
  exact List.prefix_append _ _

/-- The entry of a route names its middleware once, if it has any. -/
theorem filter_isMiddlewareLine (rootDir : String) (r : Route) :
    (r.lines rootDir).filter (IsMiddlewareLine ·) =
      if r.middleware.isEmpty then [] else [middlewareLine r.middleware] := by
  have hmethod : ∀ rest, ¬ IsMiddlewareLine ("- **" ++ rest) :=
    Text.not_prefix_toList_append (by decide) (by decide)
  have hhandler : ∀ rest, ¬ IsMiddlewareLine ("  - Handler: " ++ rest) :=
    Text.not_prefix_toList_append (by decide) (by decide)
  have hsource : ∀ rest, ¬ IsMiddlewareLine ("  - Source: " ++ rest) :=
    Text.not_prefix_toList_append (by decide) (by decide)
  have hempty : ¬ IsMiddlewareLine "" := by decide
  have hmiddleware : IsMiddlewareLine ("  - Middleware: " ++ ", ".intercalate r.middleware) :=
    isMiddlewareLine_middlewareLine r.middleware
  unfold lines
  rw [String.append_assoc, String.append_assoc]
  cases handlerLabel? r <;> cases r.middleware.isEmpty <;>
    simp [hmethod, hhandler, hmiddleware, hempty, hsource, middlewareLine, middlewareStart]

/-- **Names of middleware.** The names of any text read as a list are those of its pieces in which
something stands, in order, and none of them has a quote at its ends. Apart from blank names they
are those of the pieces in which something is left, and there are no blank names unless a piece
holds quotes around blanks; a name is empty just where a piece holds nothing but quotes. The
middleware of a route is what one list in its text names, and its entry has one line with these
names, or none. -/
theorem middleware_exact (text : List Char) :
    AreNamesOf text (middlewareNames text) ∧
    ∀ (source : String) (r : Route), r ∈ annotated source text ∨ r ∈ registered source text →
      (∃ items, items <:+: text ∧ AreNamesOf items r.middleware) ∧
        ∀ rootDir, (r.lines rootDir).filter (IsMiddlewareLine ·) =
          if r.middleware.isEmpty then [] else [middlewareLine r.middleware] := by
  refine ⟨areNamesOf_middlewareNames text, fun source r hr => ⟨?_, ?_⟩⟩
  · obtain ⟨items, hitems, hnames⟩ := exists_items_of_mem hr
    rw [hnames]
    exact ⟨items, hitems, areNamesOf_middlewareNames items⟩
  · exact fun rootDir => filter_isMiddlewareLine rootDir r

/-- A route with a middleware that has an empty name. -/
def emptyNameText : List Char := "#[Route('/a', middleware: ['auth', ''])]".toList

/-- The entry of the route names the empty name. -/
theorem middleware_exact_sample :
    ∃ r, r ∈ annotated "A.php" emptyNameText ∧ r.middleware = ["auth", ""] ∧
      (∃ items, items <:+: emptyNameText ∧ AreNamesOf items ["auth", ""]) ∧
      (r.lines "/").filter (IsMiddlewareLine ·) = ["  - Middleware: auth, "] := by
  obtain ⟨r, hr, hnames⟩ : ∃ r ∈ annotated "A.php" emptyNameText, r.middleware = ["auth", ""] := by
    decide +kernel
  obtain ⟨hitems, hlines⟩ := (middleware_exact emptyNameText).2 "A.php" r (.inl hr)
  refine ⟨r, hr, hnames, hnames ▸ hitems, ?_⟩
  rw [hlines, hnames]
  decide +kernel

/-- **Blank names are not all left out.** A piece of quotes is kept, and its name is empty. -/
theorem not_blank_dropped :
    ¬ ∀ cs, (∀ name ∈ middlewareNames cs,
        name ≠ "" ∧ name.toList.head? ≠ some '\'' ∧ name.toList.getLast? ≠ some '\'') ∧
      middlewareNames cs = namedPieces cs := by
  intro h
  have hempty : "" ∈ middlewareNames "'auth', ''".toList := by decide +kernel
  exact ((h _).1 "" hempty).1 rfl

end ApiReport.Route
