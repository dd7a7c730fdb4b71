import ApiReport.Text.Pieces

/-!
# The lines of a text

A text is cut at line feeds, and a carriage return right before one belongs to the line end. There
is just one way to do this, and `lines` does it.

Key definitions: `Text.SplitsInto`.
Key theorems: `Text.splitsInto_iff`, `Text.SplitsInto.infix_of_mem`, `Text.lines_join`.
-/
namespace ApiReport.Text

/-- The lines of a text, said by how each of them ends. -/
inductive SplitsInto : List Char → List (List Char) → Prop
  /-- The last line ends with the text. -/
  | last {line} : '\n' ∉ line → SplitsInto line [line]
  | feed {line rest ls} : '\n' ∉ line → line.getLast? ≠ some '\r' → SplitsInto rest ls →
      SplitsInto (line ++ '\n' :: rest) (line :: ls)
  | returnFeed {line rest ls} : '\n' ∉ line → SplitsInto rest ls →
      SplitsInto (line ++ '\r' :: '\n' :: rest) (line :: ls)

theorem dropReturn_concat (line : List Char) : dropReturn (line ++ ['\r']) = line := by
  rw [dropReturn, List.getLast?_concat, if_pos rfl, List.dropLast_concat]

theorem endLines_cons (p : List Char) {ps : List (List Char)} (h : ps ≠ []) :
    endLines (p :: ps) = dropReturn p :: endLines ps := by
  cases ps with
  | nil => exact absurd rfl h
  | cons q ps =>
    rw [endLines]
    exact List.cons_ne_nil q ps

theorem splitsInto_endLines : ∀ {ps : List (List Char)}, ps ≠ [] → (∀ p ∈ ps, '\n' ∉ p) →
    SplitsInto (join '\n' ps) (endLines ps)
  | [], h, _ => absurd rfl h
  | [p], _, h => .last (h p List.mem_cons_self)
  | p :: q :: ps, _, h => by
    obtain ⟨hp, hps⟩ := List.forall_mem_cons.1 h
    have ih := splitsInto_endLines (List.cons_ne_nil q ps) hps
    rw [join, endLines_cons p (List.cons_ne_nil q ps)]
    by_cases hr : p.getLast? = some '\r'
    · obtain ⟨line, rfl⟩ : ∃ line, p = line ++ ['\r'] := List.getLast?_eq_some_iff.1 hr
      rw [dropReturn_concat, List.append_assoc, List.singleton_append]
      exact .returnFeed (fun hm => hp (List.mem_append_left _ hm)) ih
    · rw [dropReturn, if_neg hr]
      exact .feed hp hr ih

/-- Splitting a text gives its lines, and nothing else does. -/
theorem splitsInto_iff {cs : List Char} {ls : List (List Char)} :
    SplitsInto cs ls ↔ ls = lines cs := by
  constructor
  · intro h
    induction h with
    | last hn => rw [lines, pieces_of_not_mem hn, endLines]
    | feed hn hr _ ih =>
      rw [lines, pieces_append_cons _ hn, endLines_cons _ (pieces_ne_nil _ _), dropReturn,
        if_neg hr, ih, lines]
    | @returnFeed line rest _ hn _ ih =>
      have hn' : '\n' ∉ line ++ ['\r'] := by simpa using hn
      rw [List.append_cons, lines, pieces_append_cons _ hn', endLines_cons _ (pieces_ne_nil _ _),
        dropReturn_concat, ih, lines]
  · rintro rfl
    have h := splitsInto_endLines (pieces_ne_nil '\n' cs) fun p hp => not_mem_of_mem_pieces hp
    rwa [join_pieces] at h

/-- A line stands in its text. -/
theorem SplitsInto.infix_of_mem {cs line : List Char} {ls : List (List Char)}
    (h : SplitsInto cs ls) (hline : line ∈ ls) : line <:+: cs := by
  induction h with
  | last _ =>
    obtain rfl := List.mem_singleton.1 hline
    exact List.infix_rfl
  | feed _ _ _ ih =>
    rcases List.mem_cons.1 hline with rfl | hline
    · exact (List.prefix_append _ _).isInfix
    · exact (ih hline).trans ((List.suffix_cons _ _).trans (List.suffix_append _ _)).isInfix
  | returnFeed _ _ ih =>
    rcases List.mem_cons.1 hline with rfl | hline
    · exact (List.prefix_append _ _).isInfix
    · refine (ih hline).trans (List.IsSuffix.isInfix ?_)
      exact ((List.suffix_cons _ _).trans (List.suffix_cons _ _)).trans (List.suffix_append _ _)

theorem endLines_eq_self : ∀ {ls : List (List Char)}, (∀ l ∈ ls, l.getLast? ≠ some '\r') →
    endLines ls = ls
  | [], _ => rfl
  | [_], _ => rfl
  | l :: m :: ls, h => by
    obtain ⟨hl, hls⟩ := List.forall_mem_cons.1 h
    rw [endLines, dropReturn, if_neg hl, endLines_eq_self hls]
    exact List.cons_ne_nil m ls

/-- Lines that hold no line end are the lines of the text that they make up. -/
theorem lines_join {ls : List (List Char)} (hne : ls ≠ [])
    (h : ∀ l ∈ ls, '\n' ∉ l ∧ l.getLast? ≠ some '\r') : lines (join '\n' ls) = ls := by
  rw [lines, pieces_join hne fun l hl => (h l hl).1, endLines_eq_self fun l hl => (h l hl).2]

theorem splitsInto_join {ls : List (List Char)} (hne : ls ≠ [])
    (h : ∀ l ∈ ls, '\n' ∉ l ∧ l.getLast? ≠ some '\r') : SplitsInto (join '\n' ls) ls :=
  splitsInto_iff.2 (lines_join hne h).symm

end ApiReport.Text
