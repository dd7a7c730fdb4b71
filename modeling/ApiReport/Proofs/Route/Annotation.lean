import ApiReport.Proofs.Text.Lines
import ApiReport.Route.Annotation
import Mathlib.Data.List.Basic

/-!
# What annotations declare

The scan hands three things on from line to line: whether the next line starts in a block comment,
the path of the last group, and the name of the last class. Here the same is said of the lines as a
whole. A line is live if it holds no comment mark, the last mark before it ended a comment, and it
does not start like a comment line; every live line with a route attribute declares one route, with
the group and the class of the last live lines up to it that give one, and with the handler of the
lines behind it.

Key definitions: `Route.isLive`, `Route.liveLines`, `Route.lastSaid`, `Route.declaredAt?`,
`Route.Scan.Describes`.
Key theorems: `Route.Scan.Describes.next`, `Route.annotatedFrom_eq`, `Route.annotated_eq`.
-/
namespace ApiReport.Route

/-! ### Live lines -/

/-- Whether a line holds a mark at which a block comment starts or ends. -/
def holdsMark (line : List Char) : Bool :=
  Text.contains ['/', '*'] line || Text.contains ['*', '/'] line

/-- Whether lines end outside of a block comment: the last of them that holds a mark, if there is
one, holds one that ends a comment. -/
def endsInCode (before : List (List Char)) : Bool :=
  (before.filter holdsMark).getLast?.all (Text.contains ['*', '/'])

/-- Whether a line is live, given the lines before it. -/
def isLive (before : List (List Char)) (line : List Char) : Bool :=
  !holdsMark line && endsInCode before &&
    !(['/', '/'].isPrefixOf (Text.trimStart line) || ['*'].isPrefixOf (Text.trimStart line))

def liveLines (lines : List (List Char)) : List (List Char) :=
  (List.range lines.length).filterMap fun i => lines[i]?.filter (isLive (lines.take i))

/-- What the last live line that says something says; nothing if there is none. -/
def lastSaid (read : List Char → Option (List Char)) (lines : List (List Char)) : List Char :=
  ((liveLines lines).filterMap read).getLast?.getD []

/-- The route that the line with a given number declares, counted from zero. -/
def declaredAt? (source : String) (lines : List (List Char)) (i : Nat) : Option Route := do
  let line ← lines[i]?.filter (isLive (lines.take i))
  let text ← routeAttribute? line
  let method? := Text.firstAt? (textArgument? "method") text
  let handler? := ((lines.drop (i + 1)).take 5).findSome? functionName?
  return {
    method := (method?.map fun m => String.ofList (Text.uppercase m)).getD "GET"
    path := String.ofList (lastSaid groupPath? (lines.take (i + 1))) ++
      String.ofList ((literals text).head?.getD [])
    description := (Arguments.ofText text).description.getD ""
    controller := String.ofList (lastSaid className? (lines.take (i + 1)))
    handler := String.ofList (handler?.getD [])
    source
    middleware := (Arguments.ofText text).middleware
    origin := .annotated }

variable {before : List (List Char)} {line : List Char}

theorem endsInCode_concat :
    endsInCode (before ++ [line]) =
      if holdsMark line then Text.contains ['*', '/'] line else endsInCode before := by
  unfold endsInCode
  by_cases h : holdsMark line = true
  · simp [List.filter_append, h]
  · simp [List.filter_append, h]

/-- Whether a line is live does not depend on the lines behind it. -/
theorem liveLines_concat :
    liveLines (before ++ [line]) = liveLines before ++ ([line].filter (isLive before)) := by
  unfold liveLines
  rw [List.length_append, List.length_singleton, List.range_succ, List.filterMap_append]
  congr 1
  · refine List.filterMap_congr fun i hi => ?_
    have hi := List.mem_range.1 hi
    rw [List.getElem?_append_left hi, List.take_append_of_le_length (Nat.le_of_lt hi)]
  · have hline : (before ++ [line])[before.length]? = some line := by simp
    have htake : (before ++ [line]).take before.length = before := by simp
    rw [List.filterMap_cons, List.filterMap_nil, hline, htake, Option.filter_some]
    cases h : isLive before line <;> simp [h]

theorem lastSaid_concat (read : List Char → Option (List Char)) :
    lastSaid read (before ++ [line]) =
      if isLive before line then (read line).getD (lastSaid read before)
      else lastSaid read before := by
  unfold lastSaid
  rw [liveLines_concat, List.filterMap_append]
  cases h : isLive before line with
  | false => simp [h]
  | true =>
    cases hr : read line with
    | none => simp [h, hr]
    | some word => simp [h, hr]

/-! ### One line -/

/-- Blanks at the start hide no word that starts with another character. -/
theorem contains_trimStart {c : Char} (word : List Char) (hc : Text.isBlank c = false) :
    ∀ line, Text.contains (c :: word) (Text.trimStart line) = Text.contains (c :: word) line
  | [] => rfl
  | x :: xs => by
    unfold Text.trimStart
    cases hx : Text.isBlank x with
    | false => rw [List.dropWhile_cons_of_neg (by simp [hx])]
    | true =>
      have hcx : (c == x) = false := by
        rw [beq_eq_false_iff_ne]
        rintro rfl
        rw [hc] at hx
        cases hx
      have hp : (c :: word).isPrefixOf (x :: xs) = false := by
        rw [List.isPrefixOf, hcx, Bool.false_and]
      rw [List.dropWhile_cons_of_pos hx, Text.contains, hp, Bool.false_or]
      exact contains_trimStart word hc xs

/-- What a scan holds, said of the lines that it has passed. -/
structure Scan.Describes (s : Scan) (before : List (List Char)) : Prop where
  place : s.place = if endsInCode before then .code else .comment
  group : s.group = lastSaid groupPath? before
  owner : s.owner = lastSaid className? before

theorem Scan.describes_nil : ({} : Scan).Describes [] where
  place := rfl
  group := rfl
  owner := rfl

/-- The next line is commented if it is not live. -/
theorem step_eq {p : Place} (hp : p = if endsInCode before then .code else .comment)
    (line : List Char) :
    p.step line =
      (if endsInCode (before ++ [line]) then .code else .comment, !isLive before line) := by
  unfold Place.step
  rw [endsInCode_concat, isLive, holdsMark]
  simp only [contains_trimStart ['/'] (show Text.isBlank '*' = false by decide),
    contains_trimStart ['*'] (show Text.isBlank '/' = false by decide)]
  subst hp
  cases Text.contains ['*', '/'] line with
  | true => simp
  | false =>
    cases Text.contains ['/', '*'] line with
    | true => simp
    | false => cases endsInCode before <;> simp

/-- **One line.** A scan that describes the lines before goes on to describe those with the line. -/
theorem Scan.Describes.next {s : Scan} (h : s.Describes before) (line : List Char) :
    (s.next line).Describes (before ++ [line]) := by
  unfold Scan.next
  rw [step_eq h.place]
  cases hl : isLive before line with
  | false =>
    refine ⟨rfl, ?_, ?_⟩
    · rw [lastSaid_concat, hl]
      exact h.group
    · rw [lastSaid_concat, hl]
      exact h.owner
  | true =>
    refine ⟨rfl, ?_, ?_⟩
    · rw [lastSaid_concat, hl, if_pos rfl, ← h.group]
      rfl
    · rw [lastSaid_concat, hl, if_pos rfl, ← h.owner]
      rfl

/-- What a line declares is what the lines before it, the line and those behind it say. -/
theorem Scan.Describes.declared?_eq {s : Scan} (h : s.Describes before) (source : String)
    (line : List Char) (following : List (List Char)) :
    s.declared? source line following =
      declaredAt? source (before ++ line :: following) before.length := by
  have hline : (before ++ line :: following)[before.length]? = some line := by simp
  have htake : (before ++ line :: following).take before.length = before := by simp
  have htake' : (before ++ line :: following).take (before.length + 1) = before ++ [line] := by
    rw [List.append_cons]
    exact List.take_left' (by simp)
  have hdrop : (before ++ line :: following).drop (before.length + 1) = following := by simp
  have hnext := h.next line
  unfold Scan.declared? declaredAt?
  rw [step_eq h.place, hline, htake, htake', hdrop, Option.filter_some]
  cases hl : isLive before line with
  | false => rfl
  | true =>
    cases hr : routeAttribute? line with
    | none => simp [hr]
    | some text =>
      have hpath : (Arguments.ofText text).path.getD "" =
          String.ofList ((literals text).head?.getD []) := by
        unfold Arguments.ofText
        cases (literals text).head? <;> rfl
      simp only [hr, Bool.not_true, Bool.false_eq_true, if_false, if_true, Option.map_some,
        Option.bind_eq_bind, Option.bind_some]
      rw [Scan.route, hnext.group, hnext.owner, hpath]
      rfl

/-- The handler is found among the functions of the lines, whatever else they hold. -/
theorem handlerAmong?_congr {following following' : List (List Char)}
    (h : following.map functionName? = following'.map functionName?) :
    handlerAmong? following = handlerAmong? following' := by
  have hnames : ∀ ls : List (List Char),
      handlerAmong? ls = ((ls.map functionName?).take handlerReach).findSome? id := by
    intro ls
    rw [handlerAmong?, ← List.map_take, List.findSome?_map]
    rfl
  rw [hnames, hnames, h]

/-! ### All lines -/

/-- By induction on the lines that are left, with the scan describing those that have been passed.
-/
theorem annotatedFrom_eq (source : String) : ∀ {following before : List (List Char)} {s : Scan},
    s.Describes before →
    annotatedFrom source s following = (List.range following.length).filterMap fun k =>
      declaredAt? source (before ++ following) (before.length + k)
  | [], before, s, _ => rfl
  | line :: following, before, s, h => by
    have ih : annotatedFrom source (s.next line) following = _ :=
      annotatedFrom_eq source (h.next line)
    have hrest : (fun k => declaredAt? source (before ++ line :: following) (before.length + k)) ∘
          Nat.succ =
        fun k => declaredAt? source (before ++ [line] ++ following)
          ((before ++ [line]).length + k) := by
      funext k
      have hk : before.length + Nat.succ k = (before ++ [line]).length + k := by
        rw [List.length_append, List.length_singleton]
        omega
      rw [Function.comp_apply, hk, List.append_cons]
    rw [annotatedFrom, ih, h.declared?_eq, List.length_cons, List.range_succ_eq_map,
      List.filterMap_cons, List.filterMap_map, hrest, Nat.add_zero]
    cases declaredAt? source (before ++ line :: following) before.length <;> rfl

/-- **A scan finds what the lines declare.** One route for every live line with a route attribute,
in the order of the lines, and no other. -/
theorem annotated_eq (source : String) (text : List Char) :
    ∃ lines, (∀ ls, Text.SplitsInto text ls ↔ ls = lines) ∧
      annotated source text = (List.range lines.length).filterMap (declaredAt? source lines) := by
  refine ⟨Text.lines text, fun ls => Text.splitsInto_iff, ?_⟩
  rw [annotated, annotatedFrom_eq source Scan.describes_nil]
  simp

/-- A group in a comment gives no path. -/
example : (annotated "A.php" "/*\n#[RouteGroup('/x')]\n*/\n#[Route('/y')]".toList).map Route.path =
    ["/y"] := by
  decide +kernel

end ApiReport.Route
