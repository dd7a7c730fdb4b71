import ApiReport.Proofs.Route.Pattern
import ApiReport.Text.Pieces

/-!
# Quotes are paired from left to right

The quotes of a text cut it into pieces. The search for quoted texts passes over the first piece,
reads the second one if a quote follows it, and stands at the start of the third one: it goes on as
if the text had started there. So what it reads are the pieces at odd positions, counted from zero,
without the last piece of all, which no quote follows. An unclosed quote is passed over, and its
piece is the last one, for no further quote stands behind it.

Key definitions: `Text.oddPlaces`.
Key theorems: `Text.getElem?_oddPlaces`, `Text.dropLast_pieces_append`, `Route.literals_join`,
`Route.literals_eq`, `Route.literals_paired`.
-/
namespace ApiReport

namespace Text

/-! ### Odd positions -/

variable {α : Type}

/-- The elements of a list at its odd positions, counted from zero. -/
def oddPlaces : List α → List α
  | _ :: x :: xs => x :: oddPlaces xs
  | _ => []

theorem getElem?_oddPlaces : ∀ (xs : List α) (i : Nat), (oddPlaces xs)[i]? = xs[2 * i + 1]?
  | [], i => by simp [oddPlaces]
  | [_], i => by simp [oddPlaces]
  | _ :: x :: xs, 0 => rfl
  | _ :: x :: xs, i + 1 => by
    have hplace : 2 * (i + 1) + 1 = 2 * i + 1 + 1 + 1 := by omega
    rw [oddPlaces, List.getElem?_cons_succ, getElem?_oddPlaces xs i, hplace,
      List.getElem?_cons_succ, List.getElem?_cons_succ]

theorem length_oddPlaces : ∀ xs : List α, (oddPlaces xs).length = xs.length / 2
  | [] => by simp [oddPlaces]
  | [_] => by simp [oddPlaces]
  | _ :: x :: xs => by
    rw [oddPlaces, List.length_cons, length_oddPlaces xs, List.length_cons, List.length_cons]
    omega

/-- All pieces but the last are closed: what is put behind them does not change them. -/
theorem dropLast_pieces_append {sep : Char} {v : List Char} (hv : sep ∉ v) (u : List Char) :
    (pieces sep (u ++ v)).dropLast = (pieces sep u).dropLast := by
  obtain ⟨ps, p, hu, huv⟩ := exists_pieces_append hv u
  rw [hu, huv, List.dropLast_concat, List.dropLast_concat]

end Text

namespace Route

open Text (oddPlaces pieces join)

variable {u v rest : List Char}

theorem literals_of_not_mem (hu : '\'' ∉ u) : literals u = [] := by
  rw [← List.append_nil u, literals_append hu, literals, Text.allAt]

/-- A quote that is not closed starts no quoted text. -/
theorem literals_unclosed (hv : '\'' ∉ v) : literals ('\'' :: v) = [] := by
  have hread : quoted? ('\'' :: v) = none := by
    have hrest : v.dropWhile (· != '\'') = [] := List.dropWhile_eq_nil_iff.2 (bne_of_not_mem hv)
    simp [quoted?, Text.after?, hrest]
  rw [literals, Text.allAt_cons_of_none hread]
  exact literals_of_not_mem hv

/-- By induction on the pieces, two at a time: the quoted text between the first two quotes is read,
and the search stands in front of the third piece. -/
theorem literals_join : ∀ {ps : List (List Char)}, (∀ p ∈ ps, '\'' ∉ p) →
    literals (join '\'' ps) = oddPlaces ps.dropLast
  | [], _ => literals_of_not_mem List.not_mem_nil
  | [p], h => literals_of_not_mem (h p List.mem_cons_self)
  | [p, q], h => by
    obtain ⟨hp, hq⟩ := List.forall_mem_cons.1 h
    calc literals (p ++ '\'' :: q) = literals ('\'' :: q) := literals_append hp
      _ = [] := literals_unclosed (hq q List.mem_cons_self)
  | p :: q :: r :: ps, h => by
    obtain ⟨hp, h⟩ := List.forall_mem_cons.1 h
    obtain ⟨hq, h⟩ := List.forall_mem_cons.1 h
    have htext : join '\'' (p :: q :: r :: ps) = p ++ (inQuotes q ++ join '\'' (r :: ps)) := by
      simp [join, inQuotes]
    calc literals (join '\'' (p :: q :: r :: ps))
        = q :: literals (join '\'' (r :: ps)) := by
          rw [htext, literals_append hp, literals_inQuotes hq]
      _ = q :: oddPlaces (r :: ps).dropLast := by rw [literals_join h]
      _ = oddPlaces (p :: q :: r :: ps).dropLast := rfl

/-- The quoted texts of a text are the pieces at odd positions that a quote follows. -/
theorem literals_eq (cs : List Char) : literals cs = oddPlaces (pieces '\'' cs).dropLast := by
  have hpieces : ∀ p ∈ pieces '\'' cs, '\'' ∉ p := fun p => Text.not_mem_of_mem_pieces
  calc literals cs = literals (join '\'' (pieces '\'' cs)) := by rw [Text.join_pieces]
    _ = oddPlaces (pieces '\'' cs).dropLast := literals_join hpieces

/-- **Quotes are paired from left to right.** Cut at its quotes, a text has its quoted texts at the
odd positions of all pieces but the last: the piece at position `2 * i + 1` is the quoted text `i`,
empty or not, exactly if a further quote follows it. So every second quote closes a quoted text, and
what holds no quote and is put behind a text adds and changes none. -/
theorem literals_paired (cs : List Char) :
    (∀ i, (literals cs)[i]? = (pieces '\'' cs).dropLast[2 * i + 1]?) ∧
      (literals cs).length = cs.count '\'' / 2 ∧
      ∀ tail, '\'' ∉ tail → literals (cs ++ tail) = literals cs := by
  refine ⟨fun i => ?_, ?_, fun tail htail => ?_⟩
  · rw [literals_eq, Text.getElem?_oddPlaces]
  · rw [literals_eq, Text.length_oddPlaces, List.length_dropLast, Text.length_pieces,
      Nat.add_sub_cancel]
  · rw [literals_eq, literals_eq, Text.dropLast_pieces_append htail]

/-- Five quotes with a line break between two of them: an empty quoted text, one over two lines, and
an unclosed one. -/
theorem literals_paired_sample :
    '\'' ∉ " e\nf".toList ∧
      literals ("a'' 'b\nc' 'd".toList ++ " e\nf".toList) = literals "a'' 'b\nc' 'd".toList ∧
      literals "a'' 'b\nc' 'd".toList = ["".toList, "b\nc".toList] := by
  have htail : '\'' ∉ " e\nf".toList := by decide
  obtain ⟨-, -, happend⟩ := literals_paired "a'' 'b\nc' 'd".toList
  refine ⟨htail, happend _ htail, ?_⟩
  rw [literals_eq]
  decide

end Route

end ApiReport
