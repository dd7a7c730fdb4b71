import ApiReport.Proofs.Route.Pattern
import ApiReport.Route

/-!
# The layout of canonical source files

A canonical source file is laid out in one way only: the group of a controller, its class, and for
each route an attribute with all arguments and the function below it. A text can be quoted in it if
it cannot be taken for the end of its own quotes or for a part of the layout.

Key definitions: `Declaration`, `Controller`, `printed`, `IsLiteral`, `IsWord`,
`Controller.IsCanonical`.
Key theorem: `Declaration.ofText_arguments`.
-/
namespace ApiReport.Route

open Text (not_mem_append not_mem_intercalate)

/-! ### The layout -/

/-- What a canonical file says of one route. -/
structure Declaration where
  path : String
  method : String
  description : String
  middleware : List String
  handler : String
  deriving DecidableEq, Repr

/-- What a canonical file says of one controller. -/
structure Controller where
  group : String
  name : String
  routes : List Declaration
  deriving DecidableEq, Repr

def quote (s : String) : String := "'" ++ s ++ "'"

namespace Declaration

/-- The text between the parentheses of the attribute. -/
def arguments (d : Declaration) : String :=
  quote d.path ++ ", method: " ++ quote d.method ++ ", description: " ++ quote d.description ++
    ", middleware: [" ++ ", ".intercalate (d.middleware.map quote) ++ "]"

def attributeLine (d : Declaration) : String := "#[Route(" ++ d.arguments ++ ")]"

def functionLine (d : Declaration) : String := "public function " ++ d.handler ++ "() \x7b\x7d"

/-- Every text that the attribute quotes. -/
def literals (d : Declaration) : List String := d.path :: d.method :: d.description :: d.middleware

end Declaration

def Controller.lines (c : Controller) : List String :=
  ["#[RouteGroup(" ++ quote c.group ++ ")]", "class " ++ c.name, "\x7b"] ++
    c.routes.flatMap (fun d => [d.attributeLine, d.functionLine]) ++ ["\x7d"]

def printed (controllers : List Controller) : String :=
  "\n".intercalate (controllers.flatMap Controller.lines)

/-- A text that can be quoted: it holds no character that ends its quotes, an argument, a list, an
attribute or a line, no comment mark, and no keyword of a class. -/
structure IsLiteral (s : String) : Prop where
  plain : ∀ c ∈ ['\'', '(', ')', '[', ']', ':', '\n'], c ∉ s.toList
  noOpening : ¬ "/*".toList <:+: s.toList
  noClosing : ¬ "*/".toList <:+: s.toList
  noClass : ¬ "class".toList <:+: s.toList

/-- A text that can stand where a name is read: some characters, all of them characters of names. -/
structure IsWord (s : String) : Prop where
  nonempty : s.toList ≠ []
  characters : ∀ c ∈ s.toList, isNameChar c = true

/-- A route that can be laid out. -/
structure Declaration.IsCanonical (d : Declaration) : Prop where
  literals : ∀ s ∈ d.literals, IsLiteral s
  noComma : ∀ m ∈ d.middleware, ',' ∉ m.toList
  method : d.method.toList ≠ []
  description : d.description.toList ≠ []
  handler : IsWord d.handler

structure Controller.IsCanonical (c : Controller) : Prop where
  group : IsLiteral c.group
  name : IsWord c.name
  routes : ∀ d ∈ c.routes, d.IsCanonical

instance (s : String) : Decidable (IsLiteral s) :=
  have : Decidable (∀ c ∈ ['\'', '(', ')', '[', ']', ':', '\n'], c ∉ s.toList) :=
    List.decidableBAll _ _
  decidable_of_iff ((∀ c ∈ ['\'', '(', ')', '[', ']', ':', '\n'], c ∉ s.toList) ∧
      ¬ "/*".toList <:+: s.toList ∧ ¬ "*/".toList <:+: s.toList ∧ ¬ "class".toList <:+: s.toList)
    ⟨fun ⟨hplain, hopening, hclosing, hclass⟩ => ⟨hplain, hopening, hclosing, hclass⟩,
      fun h => ⟨h.plain, h.noOpening, h.noClosing, h.noClass⟩⟩

instance (s : String) : Decidable (IsWord s) :=
  have : Decidable (∀ c ∈ s.toList, isNameChar c = true) := List.decidableBAll _ _
  decidable_of_iff (s.toList ≠ [] ∧ ∀ c ∈ s.toList, isNameChar c = true)
    ⟨fun ⟨hne, hcharacters⟩ => ⟨hne, hcharacters⟩, fun h => ⟨h.nonempty, h.characters⟩⟩

instance (d : Declaration) : Decidable d.IsCanonical :=
  decidable_of_iff ((∀ s ∈ d.literals, IsLiteral s) ∧ (∀ m ∈ d.middleware, ',' ∉ m.toList) ∧
      d.method.toList ≠ [] ∧ d.description.toList ≠ [] ∧ IsWord d.handler)
    ⟨fun ⟨hliterals, hcomma, hmethod, hdescription, hhandler⟩ =>
        ⟨hliterals, hcomma, hmethod, hdescription, hhandler⟩,
      fun h => ⟨h.literals, h.noComma, h.method, h.description, h.handler⟩⟩

instance (c : Controller) : Decidable c.IsCanonical :=
  decidable_of_iff (IsLiteral c.group ∧ IsWord c.name ∧ ∀ d ∈ c.routes, d.IsCanonical)
    ⟨fun ⟨hgroup, hname, hroutes⟩ => ⟨hgroup, hname, hroutes⟩,
      fun h => ⟨h.group, h.name, h.routes⟩⟩

/-- The route that a controller declares. -/
def Controller.route (c : Controller) (source : String) (d : Declaration) : Route :=
  { method := String.ofList (Text.uppercase d.method.toList)
    path := c.group ++ d.path
    description := d.description
    controller := c.name
    handler := d.handler
    source
    middleware := d.middleware
    origin := .annotated }

/-! ### Texts that are laid out -/

/-- The characters of a text between two parts of the layout. -/
theorem toList_between (a b c : String) :
    (a ++ b ++ c).toList = a.toList ++ (b.toList ++ c.toList) := by
  rw [String.toList_append, String.toList_append, List.append_assoc]

theorem toList_quote (s : String) : (quote s).toList = inQuotes s.toList := by
  simp [quote, inQuotes]

/-- The characters of a list of quoted texts. -/
theorem toList_intercalate_quote (ms : List String) :
    (", ".intercalate (ms.map quote)).toList =
      [',', ' '].intercalate ((ms.map String.toList).map inQuotes) := by
  have hnames : (ms.map quote).map String.toList = (ms.map String.toList).map inQuotes := by
    rw [List.map_map, List.map_map]
    exact List.map_congr_left fun m _ => toList_quote m
  rw [String.toList_intercalate, hnames]
  rfl

namespace IsLiteral

variable {s : String}

theorem not_mem (h : IsLiteral s) {c : Char}
    (hc : c ∈ ['\'', '(', ')', '[', ']', ':', '\n']) : c ∉ s.toList :=
  h.plain c hc

theorem contains_opening (h : IsLiteral s) : Text.contains "/*".toList s.toList = false :=
  Text.contains_eq_false_iff.2 h.noOpening

theorem contains_closing (h : IsLiteral s) : Text.contains "*/".toList s.toList = false :=
  Text.contains_eq_false_iff.2 h.noClosing

theorem contains_class (h : IsLiteral s) : Text.contains "class".toList s.toList = false :=
  Text.contains_eq_false_iff.2 h.noClass

end IsLiteral

theorem IsWord.not_mem {s : String} (h : IsWord s) {c : Char} (hc : isNameChar c = false) :
    c ∉ s.toList := fun hmem => by
  rw [h.characters c hmem] at hc
  cases hc

theorem IsWord.any_isBlank {s : String} (h : IsWord s) : s.toList.any Text.isBlank = false :=
  List.any_eq_false.2 fun c hc => by simp [isBlank_of_isNameChar (h.characters c hc)]

variable {word u v : List Char}

/-! ### The attribute of a route -/

namespace Declaration

variable {d : Declaration}

theorem path_mem (d : Declaration) : d.path ∈ d.literals := List.mem_cons_self

theorem method_mem (d : Declaration) : d.method ∈ d.literals := by simp [literals]

theorem description_mem (d : Declaration) : d.description ∈ d.literals := by simp [literals]

theorem middleware_mem {m : String} (h : m ∈ d.middleware) : m ∈ d.literals := by
  simp [literals, h]

/-- The quoted names between the square brackets. -/
def list (d : Declaration) : List Char :=
  [',', ' '].intercalate ((d.middleware.map String.toList).map inQuotes)

theorem toList_arguments (d : Declaration) :
    d.arguments.toList = inQuotes d.path.toList ++ (", method: ".toList ++
      (inQuotes d.method.toList ++ (", description: ".toList ++
      (inQuotes d.description.toList ++ (", middleware: [".toList ++ (d.list ++ [']'])))))) := by
  simp only [arguments, list, String.toList_append, toList_quote, toList_intercalate_quote,
    List.append_assoc]
  rfl

theorem toList_attributeLine (d : Declaration) :
    d.attributeLine.toList = attributeStart "Route" ++ (d.arguments.toList ++ [')', ']']) :=
  toList_between _ _ _

def layout : List Char := "', method: , description: , middleware: []".toList

theorem not_mem_list {c : Char} (hsep : c ∉ [',', ' ']) (hquote : c ≠ '\'')
    (h : ∀ m ∈ d.middleware, c ∉ m.toList) : c ∉ d.list := by
  refine not_mem_intercalate hsep fun p hp => ?_
  obtain ⟨_, hx, rfl⟩ := List.mem_map.1 hp
  obtain ⟨m, hm, rfl⟩ := List.mem_map.1 hx
  exact not_mem_inQuotes hquote (h m hm)

/-- A character that is in no quoted text and not in the layout is not in the arguments. -/
theorem not_mem_arguments {c : Char} (hlayout : c ∉ layout) (h : ∀ s ∈ d.literals, c ∉ s.toList) :
    c ∉ d.arguments.toList := by
  have hpart : ∀ part : List Char, part ⊆ layout → c ∉ part :=
    fun _ hsubset hc => hlayout (hsubset hc)
  have hquote : c ≠ '\'' := by
    rintro rfl
    exact hlayout (by decide)
  have hlist : c ∉ d.list :=
    not_mem_list (hpart _ (by decide)) hquote fun m hm => h m (middleware_mem hm)
  rw [toList_arguments]
  simp only [List.mem_append, not_or]
  exact ⟨not_mem_inQuotes hquote (h _ d.path_mem), hpart _ (by decide),
    not_mem_inQuotes hquote (h _ d.method_mem), hpart _ (by decide),
    not_mem_inQuotes hquote (h _ d.description_mem), hpart _ (by decide), hlist,
    hpart _ (by decide)⟩

/-- A word that is in no quoted text and in no part of the layout is not in the line
of the attribute. -/
theorem contains_attributeLine (hword : '\'' ∉ word)
    (hlayout : ∀ part ∈ ["#[Route(", ", method: ", ", description: ", ", middleware: [", ", ", "])]",
      ", middleware: [])]"], Text.contains word part.toList = false)
    (h : ∀ s ∈ d.literals, Text.contains word s.toList = false) :
    Text.contains word d.attributeLine.toList = false := by
  have hlist : Text.contains word (", middleware: [".toList ++ (d.list ++ "])]".toList)) = false := by
    have hnames : ∀ x ∈ d.middleware.map String.toList, Text.contains word x = false := by
      intro x hx
      obtain ⟨m, hm, rfl⟩ := List.mem_map.1 hx
      exact h m (middleware_mem hm)
    unfold list
    cases hms : d.middleware.map String.toList with
    | nil => exact hlayout ", middleware: [])]" (by simp)
    | cons m ms =>
      rw [hms] at hnames
      exact contains_intercalate hword (hlayout ", " (by simp)) (hlayout "])]" (by simp))
        (hlayout ", middleware: [" (by simp)) hnames
  have hline : d.attributeLine.toList = "#[Route(".toList ++ (inQuotes d.path.toList ++
      (", method: ".toList ++ (inQuotes d.method.toList ++ (", description: ".toList ++
      (inQuotes d.description.toList ++
      (", middleware: [".toList ++ (d.list ++ "])]".toList))))))) := by
    rw [toList_attributeLine, toList_arguments]
    simp only [List.append_assoc]
    rfl
  rw [hline, contains_inQuotes hword, contains_inQuotes hword, contains_inQuotes hword, hlist,
    hlayout "#[Route(" (by simp), hlayout ", method: " (by simp),
    hlayout ", description: " (by simp), h _ d.path_mem, h _ d.method_mem, h _ d.description_mem]
  rfl

/-- The text behind the colon of the description. -/
def behindDescription (d : Declaration) : List Char :=
  ' ' :: (inQuotes d.description.toList ++ (", middleware: [".toList ++ (d.list ++ [']'])))

/-- The text behind the colon of the method. -/
def behindMethod (d : Declaration) : List Char :=
  ' ' :: (inQuotes d.method.toList ++ (", description:".toList ++ d.behindDescription))

theorem arguments_eq (d : Declaration) :
    d.arguments.toList =
      inQuotes d.path.toList ++ ", ".toList ++ "method".toList ++ ':' :: d.behindMethod := by
  rw [toList_arguments]
  simp only [List.append_assoc]
  rfl

theorem behindMethod_eq (d : Declaration) :
    d.behindMethod = ' ' :: (inQuotes d.method.toList ++ ", ".toList) ++ "description".toList ++
      ':' :: d.behindDescription := by
  rw [behindMethod, List.cons_append, List.cons_append, List.append_assoc, List.append_assoc]
  rfl

theorem behindDescription_eq (d : Declaration) :
    d.behindDescription = ' ' :: (inQuotes d.description.toList ++ ", ".toList) ++
      "middleware".toList ++ ':' :: ' ' :: ('[' :: d.list ++ ']' :: []) := by
  rw [behindDescription, List.cons_append, List.cons_append, List.append_assoc, List.append_assoc]
  rfl

theorem colon_not_mem_inQuotes {s : String} (h : IsLiteral s) :
    ':' ∉ inQuotes s.toList ++ ", ".toList :=
  not_mem_append (not_mem_inQuotes (by decide) (h.not_mem (by decide))) (by decide)

theorem colon_not_mem_cons_inQuotes {s : String} (h : IsLiteral s) :
    ':' ∉ ' ' :: (inQuotes s.toList ++ ", ".toList) :=
  List.not_mem_cons_of_ne_of_not_mem (by decide) (colon_not_mem_inQuotes h)

section Search

variable {α : Type} {read : List Char → Option α} {name : String} {x : Char}

/-- A search for another argument passes the name of the method. -/
theorem firstAt?_arguments (h : d.IsCanonical) (hread : ∀ cs, argument? name cs = none → read cs = none)
    (hname : ':' ∉ name.toList) (hx : name.toList.getLast? = some x) (hne : 'd' ≠ x) :
    Text.firstAt? read d.arguments.toList = Text.firstAt? read d.behindMethod := by
  have hcolon : ':' ∉ inQuotes d.path.toList ++ ", ".toList ++ "method".toList :=
    not_mem_append (colon_not_mem_inQuotes (h.literals _ d.path_mem)) (by decide)
  have hlast : (inQuotes d.path.toList ++ ", ".toList ++ "method".toList).getLast? = some 'd' := by
    rw [List.getLast?_append_of_ne_nil _ (by decide)]
    decide
  rw [arguments_eq]
  exact firstAt?_append_colon hread hname hx hcolon hlast (by decide) hne

/-- A search for another argument passes the name of the description. -/
theorem firstAt?_behindMethod (h : d.IsCanonical)
    (hread : ∀ cs, argument? name cs = none → read cs = none) (hname : ':' ∉ name.toList)
    (hx : name.toList.getLast? = some x) (hne : 'n' ≠ x) :
    Text.firstAt? read d.behindMethod = Text.firstAt? read d.behindDescription := by
  have hcolon : ':' ∉ ' ' :: (inQuotes d.method.toList ++ ", ".toList) ++ "description".toList :=
    not_mem_append (colon_not_mem_cons_inQuotes (h.literals _ d.method_mem)) (by decide)
  have hlast : (' ' :: (inQuotes d.method.toList ++ ", ".toList) ++
      "description".toList).getLast? = some 'n' := by
    rw [List.getLast?_append_of_ne_nil _ (by decide)]
    decide
  rw [behindMethod_eq]
  exact firstAt?_append_colon hread hname hx hcolon hlast (by decide) hne

end Search

/-- The arguments are read back. Every search for one of them passes the colons of those before. -/
theorem ofText_arguments (h : d.IsCanonical) :
    Arguments.ofText d.arguments.toList =
      { path := some d.path
        method := some (String.ofList (Text.uppercase d.method.toList))
        description := some d.description
        middleware := d.middleware } := by
  have hquote : ∀ s ∈ d.literals, '\'' ∉ s.toList := fun s hs => (h.literals s hs).not_mem (by decide)
  have hpath : (Route.literals d.arguments.toList).head? = some d.path.toList := by
    rw [toList_arguments, literals_inQuotes (hquote _ d.path_mem), List.head?_cons]
  have hmethod : Text.firstAt? (textArgument? "method") d.arguments.toList =
      some d.method.toList := by
    rw [arguments_eq]
    refine firstAt?_append_argument textArgument?_eq_none (by decide) (d := 'd') (by decide)
      (by decide) (colon_not_mem_inQuotes (h.literals _ d.path_mem)) ?_
    exact textArgument?_self (by decide) (d := 'd') (by decide) (by decide)
      (hquote _ d.method_mem) h.method
  have hdescription : Text.firstAt? (textArgument? "description") d.arguments.toList =
      some d.description.toList := by
    rw [firstAt?_arguments h textArgument?_eq_none (by decide) (x := 'n') (by decide) (by decide),
      behindMethod_eq]
    refine firstAt?_append_argument textArgument?_eq_none (by decide) (d := 'n') (by decide)
      (by decide) (colon_not_mem_cons_inQuotes (h.literals _ d.method_mem)) ?_
    exact textArgument?_self (by decide) (d := 'n') (by decide) (by decide)
      (hquote _ d.description_mem) h.description
  have hbracket : ']' ∉ d.list := not_mem_list (by decide) (by decide) fun m hm =>
    (h.literals m (middleware_mem hm)).not_mem (by decide)
  have hmiddleware : Text.firstAt? (listArgument? "middleware") d.arguments.toList =
      some d.list := by
    rw [firstAt?_arguments h listArgument?_eq_none (by decide) (x := 'e') (by decide) (by decide),
      firstAt?_behindMethod h listArgument?_eq_none (by decide) (x := 'e') (by decide) (by decide),
      behindDescription_eq]
    refine firstAt?_append_argument listArgument?_eq_none (by decide) (d := 'e') (by decide)
      (by decide) (colon_not_mem_cons_inQuotes (h.literals _ d.description_mem)) ?_
    exact listArgument?_self (by decide) (d := 'e') (by decide) (by decide) hbracket
  have hnames : middlewareNames d.list = d.middleware := by
    rw [list, middlewareNames_intercalate, List.map_map]
    · simp
    · intro x hx
      obtain ⟨m, hm, rfl⟩ := List.mem_map.1 hx
      exact h.noComma m hm
    · intro x hx
      obtain ⟨m, hm, rfl⟩ := List.mem_map.1 hx
      exact hquote m (middleware_mem hm)
  rw [Arguments.ofText, hpath, hmethod, hdescription, hmiddleware]
  simp [hnames]

end Declaration

end ApiReport.Route
