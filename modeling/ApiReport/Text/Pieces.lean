import ApiReport.Text.Blank

/-!
# Cutting text into pieces

Key definitions: `pieces`, `join`, `lines`, `commaList`.
Key theorems: `pieces_ne_nil`, `join_pieces`, `length_pieces`, `append_cons_inj`,
`pieces_join`.
-/
namespace ApiReport.Text

/-- The pieces between the occurrences of a separator; there is one more piece than separators. -/
def pieces (sep : Char) : List Char → List (List Char)
  | [] => [[]]
  | c :: cs =>
    if c = sep then [] :: pieces sep cs
    else
      match pieces sep cs with
      | [] => [[c]]
      | p :: ps => (c :: p) :: ps

theorem pieces_ne_nil (sep : Char) (cs : List Char) : pieces sep cs ≠ [] := by
  cases cs with
  | nil => simp [pieces]
  | cons c cs =>
    by_cases h : c = sep
    · simp [pieces, h]
    · cases hp : pieces sep cs <;> simp [pieces, h, hp]

/-- Pieces put together again with a separator between neighbours. -/
def join (sep : Char) : List (List Char) → List Char
  | [] => []
  | [p] => p
  | p :: q :: ps => p ++ sep :: join sep (q :: ps)

theorem join_cons_of_ne_nil (sep : Char) (p : List Char) {ps : List (List Char)} (h : ps ≠ []) :
    join sep (p :: ps) = p ++ sep :: join sep ps := by
  cases ps with
  | nil => exact absurd rfl h
  | cons q ps => rfl

/-- Cutting loses nothing. -/
theorem join_pieces (sep : Char) (cs : List Char) : join sep (pieces sep cs) = cs := by
  induction cs with
  | nil => rfl
  | cons c cs ih =>
    by_cases h : c = sep
    · rw [pieces, if_pos h, join_cons_of_ne_nil sep [] (pieces_ne_nil sep cs), ih, h]; rfl
    · rw [pieces, if_neg h]
      cases hp : pieces sep cs with
      | nil => exact absurd hp (pieces_ne_nil sep cs)
      | cons p ps =>
        rw [hp] at ih
        cases ps with
        | nil => simpa [join] using ih
        | cons q ps => simpa [join] using ih

theorem length_pieces (sep : Char) (cs : List Char) :
    (pieces sep cs).length = cs.count sep + 1 := by
  induction cs with
  | nil => rfl
  | cons c cs ih =>
    by_cases h : c = sep
    · rw [pieces, if_pos h, List.length_cons, ih, h, List.count_cons_self]
    · obtain ⟨p, ps, hp⟩ := List.exists_cons_of_ne_nil (pieces_ne_nil sep cs)
      rw [hp] at ih
      rw [pieces, if_neg h, hp, List.count_cons_of_ne h]
      exact ih

theorem pieces_of_not_mem {sep : Char} : ∀ {cs : List Char}, sep ∉ cs → pieces sep cs = [cs]
  | [], _ => rfl
  | c :: cs, h => by
    rw [List.mem_cons, not_or] at h
    rw [pieces, if_neg (Ne.symm h.1), pieces_of_not_mem h.2]

theorem pieces_append {sep : Char} (cs : List Char) :
    ∀ p : List Char, pieces sep (p ++ sep :: cs) = pieces sep p ++ pieces sep cs
  | [] => by
    show pieces sep (sep :: cs) = [] :: pieces sep cs
    rw [pieces, if_pos rfl]
  | c :: p => by
    rw [List.cons_append, pieces, pieces, pieces_append cs p]
    by_cases hc : c = sep
    · rw [if_pos hc, if_pos hc, List.cons_append]
    · obtain ⟨q, qs, hq⟩ := List.exists_cons_of_ne_nil (pieces_ne_nil sep p)
      rw [if_neg hc, if_neg hc, hq]
      rfl

theorem pieces_append_cons {sep : Char} (cs : List Char) {p : List Char} (h : sep ∉ p) :
    pieces sep (p ++ sep :: cs) = p :: pieces sep cs := by
  rw [pieces_append, pieces_of_not_mem h, List.singleton_append]

/-- What stands in front of the first separator and what follows it are known from the text. -/
theorem append_cons_inj {sep : Char} {u v x y : List Char} (hu : sep ∉ u) (hv : sep ∉ v)
    (h : u ++ sep :: x = v ++ sep :: y) : u = v ∧ x = y := by
  have hpieces : u :: pieces sep x = v :: pieces sep y := by
    rw [← pieces_append_cons x hu, ← pieces_append_cons y hv, h]
  obtain rfl : u = v := (List.cons.inj hpieces).1
  exact ⟨rfl, (List.cons.inj (List.append_cancel_left h)).2⟩

/-- A text without the separator at the end belongs to the last piece. -/
theorem exists_pieces_append {sep : Char} {v : List Char} (hv : sep ∉ v) : ∀ u : List Char,
    ∃ ps p, pieces sep u = ps ++ [p] ∧ pieces sep (u ++ v) = ps ++ [p ++ v]
  | [] => ⟨[], [], rfl, pieces_of_not_mem hv⟩
  | c :: u => by
    obtain ⟨ps, p, hu, huv⟩ := exists_pieces_append hv u
    rw [List.cons_append, pieces, pieces, hu, huv]
    by_cases hc : c = sep
    · rw [if_pos hc, if_pos hc]
      exact ⟨[] :: ps, p, rfl, rfl⟩
    · rw [if_neg hc, if_neg hc]
      cases ps with
      | nil => exact ⟨[], c :: p, rfl, rfl⟩
      | cons q ps => exact ⟨(c :: q) :: ps, p, rfl, rfl⟩

/-- Cutting undoes joining, if no piece holds the separator. -/
theorem pieces_join {sep : Char} : ∀ {ps : List (List Char)}, ps ≠ [] → (∀ p ∈ ps, sep ∉ p) →
    pieces sep (join sep ps) = ps
  | [], h, _ => absurd rfl h
  | [p], _, h => pieces_of_not_mem (h p List.mem_cons_self)
  | p :: q :: ps, _, h => by
    rw [join, pieces_append_cons _ (h p List.mem_cons_self),
      pieces_join (List.cons_ne_nil q ps) fun r hr => h r (List.mem_cons_of_mem p hr)]

theorem not_mem_of_mem_pieces {sep : Char} : ∀ {cs p : List Char}, p ∈ pieces sep cs → sep ∉ p
  | [], p, h => by simp [List.mem_singleton.1 h]
  | c :: cs, p, h => by
    by_cases hc : c = sep
    · rw [pieces, if_pos hc] at h
      rcases List.mem_cons.1 h with rfl | h
      · simp
      · exact not_mem_of_mem_pieces h
    · rw [pieces, if_neg hc] at h
      cases hp : pieces sep cs with
      | nil => exact absurd hp (pieces_ne_nil sep cs)
      | cons q qs =>
        rw [hp] at h
        rcases List.mem_cons.1 h with rfl | h
        · have := not_mem_of_mem_pieces (hp ▸ List.mem_cons_self : q ∈ pieces sep cs)
          simp [this, Ne.symm hc]
        · exact not_mem_of_mem_pieces (hp ▸ List.mem_cons_of_mem q h)

/-- Text joined by the core library is joined here. -/
theorem toList_intercalate (sep : Char) (ps : List String) :
    ((String.singleton sep).intercalate ps).toList = join sep (ps.map String.toList) := by
  induction ps with
  | nil => rfl
  | cons p ps ih =>
    cases ps with
    | nil => simp [join]
    | cons q ps =>
      rw [String.intercalate_cons_cons, String.toList_append, String.toList_append, ih]
      simp [join]

/-- A line without the carriage return that belongs to its line end. -/
def dropReturn (line : List Char) : List Char :=
  if line.getLast? = some '\r' then line.dropLast else line

/-- Every line but the last has lost its line feed, and with it the carriage return before it. -/
def endLines : List (List Char) → List (List Char)
  | [] => []
  | [last] => [last]
  | line :: rest => dropReturn line :: endLines rest

/-- The lines of a text, which end at a line feed or at a carriage return and line feed. -/
def lines (cs : List Char) : List (List Char) := endLines (pieces '\n' cs)

/-- The entries of a comma-separated list, trimmed, without the blank ones. -/
def commaList (cs : List Char) : List (List Char) :=
  ((pieces ',' cs).map trim).filter fun entry => !entry.isEmpty

end ApiReport.Text
