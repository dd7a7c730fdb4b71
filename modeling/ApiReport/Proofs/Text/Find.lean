import ApiReport.Text.Find
import Mathlib.Data.List.Infix

/-!
# Searching in text

A word can only be found inside of one piece of a text, if the pieces are set apart by a character
that the word does not hold. A search passes over every place at which its reader reads nothing.

Key theorems: `Text.contains_iff`, `Text.contains_append_cons`, `Text.exists_suffix_of_firstAt?`,
`Text.firstAt?_append`, `Text.firstAt?_append_cons`, `Text.firstAt?_eq_none`,
`Text.afterAnyCase?_eq_some_iff`, `Text.eq_none_of_not_infix`, `Text.allAt_append`.
-/
namespace ApiReport.Text

variable {α : Type} {read : List Char → Option α} {word u v rest : List Char} {c : Char}

/-! ### Characters that a text does not hold -/

theorem not_mem_append (hu : c ∉ u) (hv : c ∉ v) : c ∉ u ++ v := by
  rw [List.mem_append, not_or]
  exact ⟨hu, hv⟩

theorem not_mem_toList_append {s t : String} :
    c ∉ (s ++ t).toList ↔ c ∉ s.toList ∧ c ∉ t.toList := by
  rw [String.toList_append, List.mem_append, not_or]

theorem not_mem_intercalate (hsep : c ∉ u) : ∀ {ps : List (List Char)},
    (∀ p ∈ ps, c ∉ p) → c ∉ u.intercalate ps
  | [], _ => List.not_mem_nil
  | [p], h => by
    rw [List.intercalate_singleton]
    exact h p List.mem_cons_self
  | p :: q :: ps, h => by
    obtain ⟨hp, hps⟩ := List.forall_mem_cons.1 h
    rw [List.intercalate_cons_cons]
    exact not_mem_append (not_mem_append hp hsep) (not_mem_intercalate hsep hps)

/-! ### Words in a text -/

theorem contains_iff : ∀ {cs : List Char}, contains word cs = true ↔ word <:+: cs
  | [] => by rw [contains, List.isEmpty_iff, List.infix_nil]
  | c :: cs => by
    rw [contains, Bool.or_eq_true, List.isPrefixOf_iff_prefix, contains_iff, List.infix_cons_iff]

theorem contains_eq_false_iff {cs : List Char} : contains word cs = false ↔ ¬ word <:+: cs := by
  rw [← contains_iff, Bool.not_eq_true]

theorem contains_of_not_mem (hword : c ∈ word) (h : c ∉ u) : contains word u = false :=
  contains_eq_false_iff.2 fun hsub => h (hsub.subset hword)

theorem skipBlanks_suffix (cs : List Char) : skipBlanks cs <:+ cs := List.dropWhile_suffix _

theorem suffix_of_after? {cs : List Char} (h : after? word cs = some rest) : rest <:+ cs :=
  ⟨word, (after?_eq_some_iff.1 h).symm⟩

/-- A text starts with words of which no other word is a start, or the other way round. -/
theorem not_prefix_append (hlonger : ¬ word <+: u) (hshorter : ¬ u <+: word) :
    ¬ word <+: u ++ rest := by
  intro hprefix
  rcases List.prefix_or_prefix_of_prefix hprefix (List.prefix_append u rest) with hle | hle
  · exact hlonger hle
  · exact hshorter hle

theorem not_prefix_toList_append {start words : String} (hlonger : ¬ start.toList <+: words.toList)
    (hshorter : ¬ words.toList <+: start.toList) (rest : String) :
    ¬ start.toList <+: (words ++ rest).toList := by
  rw [String.toList_append]
  exact not_prefix_append hlonger hshorter

theorem append_ne_of_not_prefix {words line : String} (h : ¬ words.toList <+: line.toList)
    (rest : String) : words ++ rest ≠ line := by
  intro hline
  rw [← hline, String.toList_append] at h
  exact h (List.prefix_append _ _)

/-- A word at the start of a text ends before a character that it does not hold. -/
theorem prefix_append_cons_iff (h : c ∉ word) : word <+: u ++ c :: v ↔ word <+: u := by
  constructor
  · intro hword
    have hu : u ++ [c] <+: u ++ c :: v := by simp
    rcases List.prefix_or_prefix_of_prefix hword hu with hle | hge
    · rcases List.prefix_concat_iff.1 hle with rfl | hprefix
      · exact (h (by simp)).elim
      · exact hprefix
    · exact (h (hge.subset (by simp))).elim
  · exact fun hword => hword.trans (List.prefix_append u _)

/-- What follows a word is found in front of a character that the word does not hold, or not at all.
-/
theorem after?_append_cons (h : c ∉ word) :
    after? word (u ++ c :: v) = (after? word u).map (· ++ c :: v) := by
  cases hu : after? word u with
  | some r =>
    rw [after?_eq_some_iff.1 hu, List.append_assoc, after?_append]
    rfl
  | none =>
    have hprefix : ¬ word <+: u := fun ⟨r, hr⟩ => by
      rw [after?_eq_some_iff.2 hr.symm] at hu
      cases hu
    rw [Option.map_none, Option.eq_none_iff_forall_ne_some]
    intro r hr
    exact hprefix ((prefix_append_cons_iff h).1 ⟨r, (after?_eq_some_iff.1 hr).symm⟩)

theorem infix_append_cons_iff (h : c ∉ word) : word <:+: u ++ c :: v ↔ word <:+: u ∨ word <:+: v := by
  induction u with
  | nil =>
    have hnil : word <+: c :: v ↔ word = [] := by
      rw [← List.nil_append (c :: v), prefix_append_cons_iff h, List.prefix_nil]
    rw [List.nil_append, List.infix_cons_iff, hnil, List.infix_nil]
  | cons a u ih =>
    rw [List.cons_append, List.infix_cons_iff, List.infix_cons_iff, ih, ← List.cons_append,
      prefix_append_cons_iff h, or_assoc]

theorem contains_append_cons (h : c ∉ word) :
    contains word (u ++ c :: v) = (contains word u || contains word v) := by
  rw [Bool.eq_iff_iff, Bool.or_eq_true, contains_iff, contains_iff, contains_iff,
    infix_append_cons_iff h]

/-! ### Reading at the first place -/

theorem firstAt?_of_some {cs : List Char} {a : α} (h : read cs = some a) :
    firstAt? read cs = some a := by
  cases cs with
  | nil => exact h
  | cons c cs => rw [firstAt?, h]; rfl

/-- What is found is read at some place of the text. -/
theorem exists_suffix_of_firstAt? {a : α} : ∀ {cs : List Char}, firstAt? read cs = some a →
    ∃ w, w <:+ cs ∧ read w = some a
  | [], h => ⟨[], List.suffix_rfl, h⟩
  | c :: cs, h => by
    rw [firstAt?] at h
    cases hread : read (c :: cs) with
    | some b =>
      rw [hread] at h
      exact ⟨c :: cs, List.suffix_rfl, hread.trans h⟩
    | none =>
      rw [hread] at h
      obtain ⟨w, hw, hread⟩ := exists_suffix_of_firstAt? h
      exact ⟨w, hw.trans (List.suffix_cons c cs), hread⟩

/-- What can be found in a text is found, or something is in front of it. -/
theorem isSome_firstAt?_append (h : (firstAt? read rest).isSome = true) :
    (firstAt? read (u ++ rest)).isSome = true := by
  induction u with
  | nil => exact h
  | cons c u ih =>
    rw [List.cons_append, firstAt?]
    cases read (c :: (u ++ rest)) with
    | none => exact ih
    | some a => rfl

/-- A search passes over a start of the text at no place of which something can be read. -/
theorem firstAt?_append (h : ∀ u, u ≠ [] → u <:+ v → read (u ++ rest) = none) :
    firstAt? read (v ++ rest) = firstAt? read rest := by
  induction v with
  | nil => rfl
  | cons c v ih =>
    have hread := h (c :: v) (List.cons_ne_nil c v) List.suffix_rfl
    rw [List.cons_append] at hread ⊢
    rw [firstAt?, hread]
    exact ih fun u hne hu => h u hne (hu.trans (List.suffix_cons c v))

/-- Of the places up to a separator, a reader may read at one only: where the word in front of the
separator starts. A search passes over a text up to a separator that has another letter before it
than the word has at its end. -/
theorem firstAt?_append_cons {d : Char} (hword : word.getLast? = some d) (hu : u.getLast? ≠ some d)
    (hread : ∀ w, w <:+ u → w ≠ word → read (w ++ c :: rest) = none) :
    firstAt? read (u ++ c :: rest) = firstAt? read rest := by
  have hw : ∀ w, w <:+ u → w ≠ word := by
    rintro w ⟨t, rfl⟩ rfl
    rw [List.getLast?_append, hword] at hu
    exact hu rfl
  rw [List.append_cons]
  refine firstAt?_append fun w hne hsuffix => ?_
  rcases List.suffix_concat_iff.1 hsuffix with rfl | ⟨w, rfl, hwu⟩
  · exact (hne rfl).elim
  · rw [← List.append_cons]
    exact hread w hwu (hw w hwu)

/-- A search goes on behind a character that no reading passes and none starts at. -/
theorem firstAt?_append_cons_or (h : ∀ w, w <:+ u → read (w ++ c :: rest) = read w)
    (hnil : read [] = none) :
    firstAt? read (u ++ c :: rest) = (firstAt? read u).or (firstAt? read rest) := by
  induction u with
  | nil =>
    have hc : read (c :: rest) = none := (h [] List.suffix_rfl).trans hnil
    rw [List.nil_append, firstAt?, firstAt?, hc, hnil]
    rfl
  | cons a u ih =>
    have ha : read (a :: (u ++ c :: rest)) = read (a :: u) := h (a :: u) List.suffix_rfl
    rw [List.cons_append, firstAt?, firstAt?, ha, ih fun w hw => h w (hw.trans (List.suffix_cons a u))]
    cases read (a :: u) <;> rfl

theorem firstAt?_append_congr {x x' : List Char} (hbase : firstAt? read x = firstAt? read x')
    (h : ∀ w, w ≠ [] → w <:+ u → read (w ++ x) = read (w ++ x')) :
    firstAt? read (u ++ x) = firstAt? read (u ++ x') := by
  induction u with
  | nil => exact hbase
  | cons c u ih =>
    have hread := h (c :: u) (List.cons_ne_nil c u) List.suffix_rfl
    rw [List.cons_append, List.cons_append] at hread ⊢
    rw [firstAt?, firstAt?, hread, ih fun w hne hw => h w hne (hw.trans (List.suffix_cons c u))]

/-- Searches in two texts with the same start find related readings, if those at every place of the
start are related and those behind it are. -/
theorem firstAt?_rel {R : α → α → Prop} {x x' : List Char}
    (hbase : Option.Rel R (firstAt? read x) (firstAt? read x'))
    (h : ∀ w, w ≠ [] → w <:+ u → Option.Rel R (read (w ++ x)) (read (w ++ x'))) :
    Option.Rel R (firstAt? read (u ++ x)) (firstAt? read (u ++ x')) := by
  induction u with
  | nil => exact hbase
  | cons c u ih =>
    have hread := h (c :: u) (List.cons_ne_nil c u) List.suffix_rfl
    have ih := ih fun w hne hw => h w hne (hw.trans (List.suffix_cons c u))
    rw [List.cons_append, List.cons_append] at hread ⊢
    rw [firstAt?, firstAt?]
    revert hread
    cases read (c :: (u ++ x)) <;> cases read (c :: (u ++ x')) <;> intro hread
    · exact ih
    · cases hread
    · cases hread
    · exact hread

/-- A reader of something that starts with a word finds nothing in a text without the word. -/
theorem firstAt?_eq_none (hread : ∀ cs, (read cs).isSome = true → word <+: cs) :
    ∀ {cs : List Char}, contains word cs = false → firstAt? read cs = none
  | [], h => by
    rw [firstAt?]
    by_contra hsome
    have hprefix := hread [] (Option.isSome_iff_ne_none.2 hsome)
    exact contains_eq_false_iff.1 h hprefix.isInfix
  | c :: cs, h => by
    have hnone : read (c :: cs) = none := by
      by_contra hsome
      have hprefix := hread (c :: cs) (Option.isSome_iff_ne_none.2 hsome)
      exact contains_eq_false_iff.1 h hprefix.isInfix
    rw [contains, Bool.or_eq_false_iff] at h
    rw [firstAt?, hnone]
    exact firstAt?_eq_none hread h.2

/-! ### Words in letters of either case -/

theorem afterAnyCase?_eq_some_iff : ∀ {word cs rest : List Char},
    afterAnyCase? word cs = some rest ↔ ∃ u, cs = u ++ rest ∧ u.map fold = word.map fold
  | [], cs, rest => by simp [afterAnyCase?]
  | w :: word, [], rest => by simp [afterAnyCase?]
  | w :: word, c :: cs, rest => by
    rw [afterAnyCase?]
    constructor
    · intro h
      split at h
      · next hc =>
        obtain ⟨u, rfl, hu⟩ := afterAnyCase?_eq_some_iff.1 h
        exact ⟨c :: u, rfl, by rw [List.map_cons, List.map_cons, hc, hu]⟩
      · cases h
    · rintro ⟨u, hcs, hu⟩
      obtain ⟨a, v, rfl, ha, hv⟩ := List.map_eq_cons_iff.1 hu
      obtain ⟨rfl, rfl⟩ := List.cons.inj hcs
      rw [if_pos ha]
      exact afterAnyCase?_eq_some_iff.2 ⟨v, rfl, hv⟩

theorem suffix_of_afterAnyCase? {cs : List Char} (h : afterAnyCase? word cs = some rest) :
    rest <:+ cs := by
  obtain ⟨u, rfl, -⟩ := afterAnyCase?_eq_some_iff.1 h
  exact List.suffix_append u rest

/-- A reader of something that starts with a word reads at no place of a text without the word, if
the text ends at a character that the word does not hold. -/
theorem eq_none_of_not_infix (hread : ∀ cs, (read cs).isSome = true → word <+: cs.map Char.toLower)
    (hc : c.toLower ∉ word) (hu : ¬ word <:+: u.map Char.toLower) :
    ∀ w, w ≠ [] → w <:+ u ++ [c] → read (w ++ rest) = none := by
  intro w hne hw
  rcases List.suffix_concat_iff.1 hw with rfl | ⟨w, rfl, hwu⟩
  · exact (hne rfl).elim
  · by_contra hsome
    have hprefix := hread _ (Option.isSome_iff_ne_none.2 hsome)
    have hmap : (w ++ [c] ++ rest).map Char.toLower =
        w.map Char.toLower ++ c.toLower :: rest.map Char.toLower := by simp
    rw [hmap, prefix_append_cons_iff hc] at hprefix
    have hinside : word <:+: w.map Char.toLower := hprefix.isInfix
    have hsuffix : w.map Char.toLower <:+ u.map Char.toLower := hwu.map Char.toLower
    exact hu (hinside.trans hsuffix.isInfix)

/-! ### Reading at every place -/

section All

variable {readNext : List Char → Option (α × List Char)}

theorem allAt_cons_of_none {cs : List Char} (h : readNext (c :: cs) = none) :
    allAt readNext (c :: cs) = allAt readNext cs := by
  rw [allAt, h]

theorem allAt_cons_of_some {cs : List Char} {a : α} (h : readNext (c :: cs) = some (a, rest))
    (hrest : rest.length ≤ cs.length) : allAt readNext (c :: cs) = a :: allAt readNext rest := by
  rw [allAt, h]
  exact if_pos hrest

/-- The search for all readings passes over a start of the text at no place of which something can
be read. -/
theorem allAt_append (h : ∀ w, w ≠ [] → w <:+ v → readNext (w ++ rest) = none) :
    allAt readNext (v ++ rest) = allAt readNext rest := by
  induction v with
  | nil => rfl
  | cons c v ih =>
    have hread := h (c :: v) (List.cons_ne_nil c v) List.suffix_rfl
    rw [List.cons_append] at hread ⊢
    rw [allAt_cons_of_none hread]
    exact ih fun w hne hw => h w hne (hw.trans (List.suffix_cons c v))

end All

end ApiReport.Text
