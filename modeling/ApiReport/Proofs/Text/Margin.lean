import ApiReport.Proofs.Text.Find
import ApiReport.Proofs.Text.Lines
import Mathlib.Data.List.TakeWhile

/-!
# The margins of a line

A line is what trimming leaves of it, with blanks on either side. A search for something that starts
with another character than a blank, and is read in the same way if blanks follow the text, finds
the same in the trimmed line. The carriage return of a line end is a blank, so that a text with
other line ends has the same trimmed lines.

Key definitions: `Text.IsMargin`, `Text.endsInBlank`, `Text.IgnoresMargin`, `Text.withReturns`.
Key theorems: `Text.trim_append`, `Text.IgnoresMargin.firstAt?_trim`, `Text.contains_trim`,
`Text.map_trim_lines_withReturns`.
-/
namespace ApiReport.Text

variable {α : Type} {word cs g g' : List Char}

/-- Nothing but blanks. -/
def IsMargin (g : List Char) : Prop := ∀ c ∈ g, isBlank c = true

instance : DecidablePred IsMargin := fun g =>
  decidable_of_iff (g.all isBlank = true) List.all_eq_true

theorem isMargin_nil : IsMargin [] := List.forall_mem_nil _

/-! ### What trimming takes away -/

theorem exists_margin_trimStart (cs : List Char) : ∃ g, IsMargin g ∧ cs = g ++ trimStart cs :=
  ⟨cs.takeWhile isBlank, fun _ hc => List.mem_takeWhile_imp hc,
    List.takeWhile_append_dropWhile.symm⟩

theorem exists_margin_trimEnd (cs : List Char) : ∃ g, IsMargin g ∧ cs = trimEnd cs ++ g := by
  obtain ⟨g, hg, hcs⟩ := exists_margin_trimStart cs.reverse
  refine ⟨g.reverse, fun c hc => hg c (List.mem_reverse.1 hc), ?_⟩
  rw [trimEnd, ← trimStart, ← List.reverse_append, ← hcs, List.reverse_reverse]

theorem trimStart_of_isMargin (hg : IsMargin g) : trimStart g = [] := List.dropWhile_eq_nil_iff.2 hg

theorem trimStart_append (hg : IsMargin g) : trimStart (g ++ cs) = trimStart cs := by
  rw [trimStart, List.dropWhile_append, ← trimStart, trimStart_of_isMargin hg]
  rfl

theorem trimEnd_append (hg : IsMargin g) : trimEnd (cs ++ g) = trimEnd cs := by
  have hreverse : IsMargin g.reverse := fun c hc => hg c (List.mem_reverse.1 hc)
  rw [trimEnd, List.reverse_append, ← trimStart, trimStart_append hreverse, trimStart, ← trimEnd]

theorem trim_eq_nil_iff : trim cs = [] ↔ IsMargin cs := by
  constructor
  · intro h
    obtain ⟨g, hg, hstart⟩ := exists_margin_trimStart cs
    obtain ⟨g', hg', hend⟩ := exists_margin_trimEnd (trimStart cs)
    rw [← trim, h, List.nil_append] at hend
    rw [hstart, hend]
    exact List.forall_mem_append.2 ⟨hg, hg'⟩
  · intro h
    rw [trim, trimStart_of_isMargin h]
    rfl

/-- Blanks at the end are still there when those at the start are gone, unless nothing is. -/
theorem trimStart_append_margin (hg : IsMargin g) :
    trimStart (cs ++ g) = if (trimStart cs).isEmpty then [] else trimStart cs ++ g := by
  rw [trimStart, List.dropWhile_append, ← trimStart, ← trimStart, trimStart_of_isMargin hg]

/-- Trimming takes away all blanks around a text. -/
theorem trim_append (hg : IsMargin g) (hg' : IsMargin g') : trim (g ++ cs ++ g') = trim cs := by
  rw [trim, List.append_assoc, trimStart_append hg, trimStart_append_margin hg', trim]
  split
  · next hempty => rw [List.isEmpty_iff.1 hempty]
  · exact trimEnd_append hg'

/-- A trimmed text starts with no blank. -/
theorem trimStart_trim (cs : List Char) : trimStart (trim cs) = trim cs := by
  obtain ⟨g, hg, hcs⟩ := exists_margin_trimEnd (trimStart cs)
  rw [← trim] at hcs
  cases htrim : trim cs with
  | nil => rfl
  | cons c body =>
    rw [htrim] at hcs
    have hhead : (trimStart cs).head? = some c := by rw [hcs]; rfl
    have hc := List.head?_dropWhile_not isBlank cs
    rw [← trimStart, hhead] at hc
    exact List.dropWhile_cons_of_neg (by simpa using hc)

/-! ### Blanks at the end -/

/-- Whether a text ends in a blank. -/
def endsInBlank (cs : List Char) : Bool := cs.getLast?.any isBlank

theorem endsInBlank_append (cs : List Char) {u : List Char} (hu : u ≠ []) :
    endsInBlank (cs ++ u) = endsInBlank u := by
  rw [endsInBlank, endsInBlank, List.getLast?_append, List.getLast?_eq_some_getLast hu,
    Option.some_or]

theorem endsInBlank_trimEnd (cs : List Char) : endsInBlank (trimEnd cs) = false := by
  rw [endsInBlank, trimEnd, List.getLast?_reverse]
  have hhead := List.head?_dropWhile_not isBlank cs.reverse
  cases h : (cs.reverse.dropWhile isBlank).head? with
  | none => rfl
  | some c =>
    rw [h] at hhead
    simpa using hhead

theorem trimEnd_eq_self (h : endsInBlank cs = false) : trimEnd cs = cs := by
  rcases List.eq_nil_or_concat' cs with rfl | ⟨body, c, rfl⟩
  · rfl
  · have hc : isBlank c = false := by simpa [endsInBlank] using h
    rw [trimEnd, List.reverse_concat, List.dropWhile_cons_of_neg (by simp [hc]),
      ← List.reverse_concat, List.reverse_reverse]

/-- A text that ends in no blank is known from itself with blanks behind it. -/
theorem append_margin_inj {u v : List Char} {c c' : Char} (hg : IsMargin g) (hg' : IsMargin g')
    (hc : isBlank c = false) (hc' : isBlank c' = false) (h : u ++ c :: g = v ++ c' :: g') :
    u = v ∧ c = c' := by
  have htrim : ∀ {u g : List Char} {c : Char}, IsMargin g → isBlank c = false →
      trimEnd (u ++ c :: g) = u ++ [c] := by
    intro u g c hg hc
    rw [List.append_cons, trimEnd_append hg, trimEnd_eq_self (by simpa [endsInBlank] using hc)]
  have hends : u ++ [c] = v ++ [c'] := by rw [← htrim hg hc, h, htrim hg' hc']
  exact List.append_singleton_inj.1 hends

/-! ### Readers that blanks do not matter to -/

/-- A reader that reads only where no blank stands, and reads the same if blanks follow the text. -/
structure IgnoresMargin (read : List Char → Option α) : Prop where
  starts : ∀ c cs, isBlank c = true → read (c :: cs) = none
  ends : ∀ cs g, IsMargin g → read (cs ++ g) = read cs

section Reader

variable {read : List Char → Option α}

theorem IgnoresMargin.firstAt?_append_left (h : IgnoresMargin read) (hg : IsMargin g) :
    firstAt? read (g ++ cs) = firstAt? read cs := by
  refine firstAt?_append fun u hne hu => ?_
  obtain ⟨c, u, rfl⟩ := List.exists_cons_of_ne_nil hne
  exact h.starts c _ (hg c (hu.subset List.mem_cons_self))

theorem IgnoresMargin.firstAt?_append_right (h : IgnoresMargin read) (hg : IsMargin g) :
    firstAt? read (cs ++ g) = firstAt? read cs := by
  induction cs with
  | nil =>
    have hempty : firstAt? read (g ++ []) = firstAt? read [] := h.firstAt?_append_left hg
    rwa [List.append_nil] at hempty
  | cons c cs ih =>
    have hread := h.ends (c :: cs) g hg
    rw [List.cons_append] at hread ⊢
    rw [firstAt?, hread, ih, firstAt?]

/-- A search finds the same in the trimmed line. -/
theorem IgnoresMargin.firstAt?_trim (h : IgnoresMargin read) (cs : List Char) :
    firstAt? read (trim cs) = firstAt? read cs := by
  obtain ⟨g, hg, hstart⟩ := exists_margin_trimStart cs
  obtain ⟨g', hg', hend⟩ := exists_margin_trimEnd (trimStart cs)
  calc firstAt? read (trim cs) = firstAt? read (trim cs ++ g') :=
        (h.firstAt?_append_right hg').symm
    _ = firstAt? read (trimStart cs) := by rw [trim, ← hend]
    _ = firstAt? read (g ++ trimStart cs) := (h.firstAt?_append_left hg).symm
    _ = firstAt? read cs := by rw [← hstart]

end Reader

/-! ### Words -/

/-- A word without blanks ends before the blanks that follow the text. -/
theorem after?_append_margin (hg : IsMargin g) : ∀ {word cs : List Char},
    word.any isBlank = false → after? word (cs ++ g) = (after? word cs).map (· ++ g)
  | [], cs, _ => rfl
  | w :: word, [], hword => by
    rw [List.any_cons, Bool.or_eq_false_iff] at hword
    cases g with
    | nil => rfl
    | cons c g =>
      have hc : c ≠ w := by
        rintro rfl
        rw [hg c List.mem_cons_self] at hword
        cases hword.1
      rw [List.nil_append, after?, if_neg hc]
      rfl
  | w :: word, c :: cs, hword => by
    rw [List.any_cons, Bool.or_eq_false_iff] at hword
    rw [List.cons_append, after?, after?]
    split
    · exact after?_append_margin hg hword.2
    · rfl

/-- No word starts at a blank. -/
theorem after?_cons_of_isBlank {c w : Char} (hword : isBlank w = false) (hc : isBlank c = true) :
    after? (w :: word) (c :: cs) = none := by
  rw [after?, if_neg]
  rintro rfl
  rw [hc] at hword
  cases hword

/-- What starts with a word that no blank starts cannot be read at a blank. -/
theorem bind_after?_cons_of_isBlank {c w : Char} {f : List Char → Option α}
    (hword : isBlank w = false) (hc : isBlank c = true) :
    (after? (w :: word) (c :: cs)).bind f = none := by
  rw [after?_cons_of_isBlank hword hc]
  rfl

theorem isPrefixOf_eq_isSome : ∀ word cs : List Char,
    word.isPrefixOf cs = (after? word cs).isSome
  | [], _ => rfl
  | _ :: _, [] => rfl
  | w :: word, c :: cs => by
    rw [List.isPrefixOf, after?, isPrefixOf_eq_isSome word cs]
    by_cases hc : c = w
    · rw [if_pos hc, hc, beq_self_eq_true, Bool.true_and]
    · rw [if_neg hc, beq_eq_false_iff_ne.2 (Ne.symm hc)]
      rfl

theorem isPrefixOf_append_margin (hg : IsMargin g) (hword : word.any isBlank = false) :
    word.isPrefixOf (cs ++ g) = word.isPrefixOf cs := by
  rw [isPrefixOf_eq_isSome, isPrefixOf_eq_isSome, after?_append_margin hg hword, Option.isSome_map]

/-- Reads a word and nothing more. -/
def word? (word cs : List Char) : Option Unit := if word.isPrefixOf cs then some () else none

theorem ignoresMargin_word? {w : Char} (hword : (w :: word).any isBlank = false) :
    IgnoresMargin (word? (w :: word)) where
  starts c cs hc := by
    rw [List.any_cons, Bool.or_eq_false_iff] at hword
    rw [word?, isPrefixOf_eq_isSome, after?_cons_of_isBlank hword.1 hc]
    rfl
  ends cs g hg := by rw [word?, isPrefixOf_append_margin hg hword, word?]

theorem contains_eq_isSome (word : List Char) : ∀ cs,
    contains word cs = (firstAt? (word? word) cs).isSome
  | [] => by cases word <;> rfl
  | c :: cs => by
    rw [contains, firstAt?, word?, contains_eq_isSome word cs]
    cases word.isPrefixOf (c :: cs) <;> rfl

/-- A word without blanks stands in the trimmed text as well. -/
theorem contains_trim {w : Char} (hword : (w :: word).any isBlank = false) (cs : List Char) :
    contains (w :: word) (trim cs) = contains (w :: word) cs := by
  rw [contains_eq_isSome, contains_eq_isSome, (ignoresMargin_word? hword).firstAt?_trim]

/-! ### Line ends -/

theorem trim_dropReturn (line : List Char) : trim (dropReturn line) = trim line := by
  unfold dropReturn
  split
  · next h =>
    obtain ⟨body, rfl⟩ := List.getLast?_eq_some_iff.1 h
    have hreturn : IsMargin ['\r'] := by
      intro c hc
      rw [List.mem_singleton.1 hc]
      decide
    rw [List.dropLast_concat, ← List.nil_append (body ++ ['\r']), ← List.append_assoc,
      trim_append isMargin_nil hreturn]
  · rfl

theorem map_trim_endLines : ∀ ps : List (List Char), (endLines ps).map trim = ps.map trim
  | [] => rfl
  | [_] => rfl
  | p :: q :: ps => by
    rw [endLines_cons p (List.cons_ne_nil q ps), List.map_cons, List.map_cons, trim_dropReturn,
      map_trim_endLines (q :: ps)]

/-- A text with a carriage return before every line feed. -/
def withReturns (cs : List Char) : List Char :=
  cs.flatMap fun c => if c = '\n' then ['\r', '\n'] else [c]

theorem withReturns_of_not_mem {line : List Char} (h : '\n' ∉ line) : withReturns line = line := by
  unfold withReturns
  induction line with
  | nil => rfl
  | cons c line ih =>
    rw [List.mem_cons, not_or] at h
    rw [List.flatMap_cons, if_neg (Ne.symm h.1), ih h.2]
    rfl

theorem withReturns_append_cons (line rest : List Char) :
    withReturns (line ++ '\n' :: rest) = withReturns line ++ '\r' :: '\n' :: withReturns rest := by
  simp [withReturns]

theorem splitsInto_withReturns : ∀ {ps : List (List Char)}, ps ≠ [] → (∀ p ∈ ps, '\n' ∉ p) →
    SplitsInto (withReturns (join '\n' ps)) ps
  | [], h, _ => absurd rfl h
  | [p], _, h => by
    have hp := h p List.mem_cons_self
    rw [join, withReturns_of_not_mem hp]
    exact .last hp
  | p :: q :: ps, _, h => by
    obtain ⟨hp, hps⟩ := List.forall_mem_cons.1 h
    rw [join, withReturns_append_cons, withReturns_of_not_mem hp]
    exact .returnFeed hp (splitsInto_withReturns (List.cons_ne_nil q ps) hps)

/-- Only the margins of the lines depend on how they end. -/
theorem map_trim_lines_withReturns (cs : List Char) :
    (lines (withReturns cs)).map trim = (lines cs).map trim := by
  have hsplit := splitsInto_withReturns (pieces_ne_nil '\n' cs) fun p hp =>
    not_mem_of_mem_pieces hp
  rw [join_pieces] at hsplit
  rw [← splitsInto_iff.1 hsplit, lines, map_trim_endLines]

end ApiReport.Text
