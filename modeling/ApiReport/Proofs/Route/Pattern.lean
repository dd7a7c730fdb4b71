import ApiReport.Proofs.Text.Find
import ApiReport.Route.Pattern
import Mathlib.Data.List.TakeWhile

/-!
# Where declarations are recognised

Every pattern starts with a word, and a character that the word does not hold has to follow: a colon
the name of an argument, a blank a keyword. So of all the places of a text up to the next colon, or
up to the next blank, only one can be read, and only if the text up to there ends with the word.

Key definitions: `inQuotes`, `IsQuotes`.
Key theorems: `Route.quoted?_inQuotes`, `Route.literals_inQuotes`, `Route.unquoted_between`,
`Route.middlewareNames_intercalate`, `Route.argument?_append`, `Route.nameAfter?_append`,
`Route.attribute?_append`.
-/
namespace ApiReport.Route

open Text (not_mem_append)

variable {α : Type} {read : List Char → Option α} {name keyword : String} {u v rest cs : List Char}

def inQuotes (cs : List Char) : List Char := '\'' :: cs ++ ['\'']

/-! ### Quoted texts -/

theorem not_mem_inQuotes {c : Char} (hc : c ≠ '\'') (hu : c ∉ u) : c ∉ inQuotes u := by
  simp [inQuotes, hc, hu]

theorem takeWhile_append_cons {p : Char → Bool} {c : Char} (hu : ∀ x ∈ u, p x = true)
    (hc : p c = false) : (u ++ c :: rest).takeWhile p = u := by
  rw [List.takeWhile_append_of_pos hu, List.takeWhile_cons_of_neg (by simp [hc]), List.append_nil]

theorem dropWhile_append_cons {p : Char → Bool} {c : Char} (hu : ∀ x ∈ u, p x = true)
    (hc : p c = false) : (u ++ c :: rest).dropWhile p = c :: rest := by
  rw [List.dropWhile_append_of_pos hu, List.dropWhile_cons_of_neg (by simp [hc])]

theorem bne_of_not_mem {c : Char} (hu : c ∉ u) : ∀ x ∈ u, (x != c) = true := by
  intro x hx
  rw [bne_iff_ne]
  rintro rfl
  exact hu hx

/-- What is taken off a text ends where it did before something was put behind the text, if it
ended inside of the text or cannot go on behind it. -/
theorem span_append {p : Char → Bool} {g : List Char} : ∀ {cs : List Char},
    (cs.dropWhile p ≠ [] ∨ g.head?.any p = false) →
    (cs ++ g).takeWhile p = cs.takeWhile p ∧ (cs ++ g).dropWhile p = cs.dropWhile p ++ g
  | [], h => by
    have hg : g.head?.any p = false := h.resolve_left fun hne => hne rfl
    cases g with
    | nil => exact ⟨rfl, rfl⟩
    | cons c g =>
      have hc : p c = false := hg
      rw [List.nil_append, List.takeWhile_cons_of_neg (by simp [hc]),
        List.dropWhile_cons_of_neg (by simp [hc])]
      exact ⟨rfl, rfl⟩
  | c :: cs, h => by
    rw [List.cons_append, List.takeWhile_cons, List.dropWhile_cons, List.takeWhile_cons,
      List.dropWhile_cons]
    by_cases hc : p c = true
    · rw [List.dropWhile_cons_of_pos hc] at h
      obtain ⟨htake, hdrop⟩ := span_append h
      simp only [if_pos hc, htake, hdrop, and_self]
    · simp only [if_neg hc, List.cons_append, and_self]

theorem quoted?_inQuotes (hu : '\'' ∉ u) : quoted? (inQuotes u ++ rest) = some (u, rest) := by
  have hne := bne_of_not_mem hu
  have hbody : inQuotes u ++ rest = ['\''] ++ (u ++ '\'' :: rest) := by simp [inQuotes]
  unfold quoted?
  rw [hbody, Text.after?_append, Option.bind_eq_bind, Option.bind_some,
    dropWhile_append_cons hne (by decide), takeWhile_append_cons hne (by decide)]
  rfl

theorem quotedWord?_inQuotes (hu : '\'' ∉ u) (hne : u ≠ []) :
    quotedWord? (inQuotes u ++ rest) = some (u, rest) := by
  unfold quotedWord?
  rw [quoted?_inQuotes hu, Option.filter_some, if_pos (by simpa using hne)]

/-- Where no quote stands, no quoted text starts. -/
theorem quoted?_of_ne {c : Char} (hc : c ≠ '\'') (cs : List Char) : quoted? (c :: cs) = none := by
  unfold quoted?
  rw [Text.after?, if_neg hc]
  rfl

theorem literals_append (hu : '\'' ∉ u) : literals (u ++ rest) = literals rest := by
  refine Text.allAt_append fun w hne hw => ?_
  obtain ⟨c, w, rfl⟩ := List.exists_cons_of_ne_nil hne
  refine quoted?_of_ne ?_ _
  rintro rfl
  exact hu (hw.subset List.mem_cons_self)

theorem literals_inQuotes (hu : '\'' ∉ u) : literals (inQuotes u ++ rest) = u :: literals rest := by
  have hread : quoted? (inQuotes u ++ rest) = some (u, rest) := quoted?_inQuotes hu
  have hlength : rest.length ≤ (u ++ ['\''] ++ rest).length := by
    rw [List.length_append]
    omega
  exact Text.allAt_cons_of_some hread hlength

theorem bracketed?_append (hu : ']' ∉ u) : bracketed? ('[' :: u ++ ']' :: rest) = some (u, rest) := by
  have hne := bne_of_not_mem hu
  have hbody : '[' :: u ++ ']' :: rest = ['['] ++ (u ++ ']' :: rest) := rfl
  unfold bracketed?
  rw [hbody, Text.after?_append, Option.bind_eq_bind, Option.bind_some,
    dropWhile_append_cons hne (by decide), takeWhile_append_cons hne (by decide)]
  rfl

/-! ### Lists of quoted names -/

theorem trim_inQuotes (u : List Char) : Text.trim (inQuotes u) = inQuotes u := by
  have hstart : Text.trimStart (inQuotes u) = inQuotes u :=
    List.dropWhile_cons_of_neg (by decide)
  have hreverse : (inQuotes u).reverse = inQuotes u.reverse := by simp [inQuotes]
  have hend : (inQuotes u.reverse).dropWhile Text.isBlank = inQuotes u.reverse :=
    List.dropWhile_cons_of_neg (by decide)
  rw [Text.trim, hstart, Text.trimEnd, hreverse, hend, ← hreverse, List.reverse_reverse]

theorem trim_cons_space (u : List Char) : Text.trim (' ' :: u) = Text.trim u := rfl

/-- Nothing but quotes. -/
def IsQuotes (cs : List Char) : Prop := ∀ c ∈ cs, c = '\''

theorem isQuotes_iff : IsQuotes cs ↔ cs.dropWhile (· == '\'') = [] := by
  rw [List.dropWhile_eq_nil_iff]
  simp only [beq_iff_eq, IsQuotes]

theorem isQuotes_reverse : IsQuotes cs.reverse ↔ IsQuotes cs := by
  simp only [IsQuotes, List.mem_reverse]

theorem dropWhile_quotes : ∀ {cs : List Char}, cs.head? ≠ some '\'' →
    cs.dropWhile (· == '\'') = cs
  | [], _ => rfl
  | _ :: _, h => List.dropWhile_cons_of_neg (by simpa using h)

/-- What stands between quotes and has none at its ends is what is left. -/
theorem unquoted_between {g u g' : List Char} (hg : IsQuotes g) (hg' : IsQuotes g')
    (hhead : u.head? ≠ some '\'') (hlast : u.getLast? ≠ some '\'') :
    unquoted (g ++ u ++ g') = u := by
  have hquotes : ∀ {g}, IsQuotes g → ∀ c ∈ g, (c == '\'') = true :=
    fun hg c hc => beq_iff_eq.2 (hg c hc)
  rw [unquoted, List.append_assoc, List.dropWhile_append_of_pos (hquotes hg)]
  cases u with
  | nil =>
    rw [List.nil_append, isQuotes_iff.1 hg']
    rfl
  | cons c u =>
    have hstart : (c :: u ++ g').head? ≠ some '\'' := hhead
    have hend : (c :: u).reverse.head? ≠ some '\'' := by rwa [List.head?_reverse]
    rw [dropWhile_quotes hstart, List.reverse_append,
      List.dropWhile_append_of_pos (hquotes (isQuotes_reverse.2 hg')), dropWhile_quotes hend,
      List.reverse_reverse]

theorem unquoted_inQuotes (hu : '\'' ∉ u) : unquoted (inQuotes u) = u := by
  have hquote : IsQuotes ['\''] := fun c hc => List.mem_singleton.1 hc
  have hhead : u.head? ≠ some '\'' := fun h => hu (List.mem_of_head? h)
  have hlast : u.getLast? ≠ some '\'' := fun h => hu (List.mem_of_getLast? h)
  exact unquoted_between hquote hquote hhead hlast

/-- Quoted names with a comma and a space between neighbours are cut at their commas. -/
theorem pieces_intercalate : ∀ {m : List Char} {ms : List (List Char)},
    (∀ x ∈ m :: ms, ',' ∉ x) →
    Text.pieces ',' ([',', ' '].intercalate ((m :: ms).map inQuotes)) =
      inQuotes m :: ms.map fun x => ' ' :: inQuotes x
  | m, [], h => by
    have hm : ',' ∉ inQuotes m := not_mem_inQuotes (by decide) (h m List.mem_cons_self)
    rw [List.map_singleton, List.intercalate_singleton, Text.pieces_of_not_mem hm]
    rfl
  | m, m' :: ms, h => by
    obtain ⟨hm, hms⟩ := List.forall_mem_cons.1 h
    have hm : ',' ∉ inQuotes m := not_mem_inQuotes (by decide) hm
    have ih := pieces_intercalate hms
    have hspace : ∀ {cs p : List Char} {ps : List (List Char)}, Text.pieces ',' cs = p :: ps →
        Text.pieces ',' (' ' :: cs) = (' ' :: p) :: ps := by
      intro cs p ps hpieces
      rw [Text.pieces, if_neg (by decide), hpieces]
    rw [List.map_cons, List.map_cons, List.intercalate_cons_cons, List.append_assoc,
      List.cons_append, List.cons_append, List.nil_append, Text.pieces_append_cons _ hm,
      ← List.map_cons, hspace ih, List.map_cons]

/-- Quoted names are never taken for blank entries, and lose nothing but their quotes. -/
theorem names_inQuotes {ms : List (List Char)} (hquote : ∀ m ∈ ms, '\'' ∉ m) :
    ((ms.map inQuotes).filter fun entry => !entry.isEmpty).map
      (fun entry => String.ofList (unquoted entry)) = ms.map String.ofList := by
  have hkeep : (ms.map inQuotes).filter (fun entry => !entry.isEmpty) = ms.map inQuotes := by
    refine List.filter_eq_self.2 fun entry hentry => ?_
    obtain ⟨m, -, rfl⟩ := List.mem_map.1 hentry
    rfl
  rw [hkeep, List.map_map]
  refine List.map_congr_left fun m hm => ?_
  rw [Function.comp_apply, unquoted_inQuotes (hquote m hm)]

/-- A list of quoted names is read back. -/
theorem middlewareNames_intercalate {ms : List (List Char)} (hcomma : ∀ m ∈ ms, ',' ∉ m)
    (hquote : ∀ m ∈ ms, '\'' ∉ m) :
    middlewareNames ([',', ' '].intercalate (ms.map inQuotes)) = ms.map String.ofList := by
  cases ms with
  | nil => rfl
  | cons m ms =>
    have htrim : (inQuotes m :: ms.map fun x => ' ' :: inQuotes x).map Text.trim =
        (m :: ms).map inQuotes := by
      rw [List.map_cons, List.map_map, trim_inQuotes, List.map_cons]
      congr 1
      refine List.map_congr_left fun x _ => ?_
      rw [Function.comp_apply, trim_cons_space, trim_inQuotes]
    rw [middlewareNames, Text.commaList, pieces_intercalate hcomma, htrim, names_inQuotes hquote]

/-! ### Words in quoted text -/

variable {word pre post : List Char}

theorem contains_inQuotes (hword : '\'' ∉ word) :
    Text.contains word (u ++ (inQuotes pre ++ v)) =
      (Text.contains word u || (Text.contains word pre || Text.contains word v)) := by
  have hquotes : u ++ (inQuotes pre ++ v) = u ++ '\'' :: (pre ++ '\'' :: v) := by simp [inQuotes]
  rw [hquotes, Text.contains_append_cons hword, Text.contains_append_cons hword]

/-- A word that is in no quoted name and in no part of the layout is not in a list of names. -/
theorem contains_intercalate (hword : '\'' ∉ word) (hsep : Text.contains word [',', ' '] = false)
    (hpost : Text.contains word post = false) : ∀ {pre m : List Char} {ms : List (List Char)},
    Text.contains word pre = false → (∀ x ∈ m :: ms, Text.contains word x = false) →
    Text.contains word (pre ++ ([',', ' '].intercalate ((m :: ms).map inQuotes) ++ post)) = false
  | pre, m, [], hpre, h => by
    have hm := h m List.mem_cons_self
    rw [List.map_singleton, List.intercalate_singleton, contains_inQuotes hword, hpre, hm, hpost]
    rfl
  | pre, m, m' :: ms, hpre, h => by
    obtain ⟨hm, hms⟩ := List.forall_mem_cons.1 h
    rw [List.map_cons, List.map_cons, List.intercalate_cons_cons, ← List.map_cons,
      List.append_assoc, List.append_assoc, contains_inQuotes hword, hpre, hm,
      contains_intercalate hword hsep hpost hsep hms]
    rfl

/-! ### Arguments -/

/-- A gap before a colon that does not end in a blank is no gap of blanks. -/
theorem after?_colon_of_gap (hne : u ≠ []) (hu : ':' ∉ u)
    (hlast : u.getLast?.any Text.isBlank = false) :
    Text.after? [':'] (Text.skipBlanks (u ++ ':' :: rest)) = none := by
  have hdrop : u.dropWhile Text.isBlank ≠ [] := by
    intro hnil
    have hblank := List.dropWhile_eq_nil_iff.1 hnil _ (List.getLast_mem hne)
    rw [List.getLast?_eq_some_getLast hne, Option.any_some, hblank] at hlast
    cases hlast
  obtain ⟨x, xs, hx⟩ := List.exists_cons_of_ne_nil hdrop
  have hcolon : x ≠ ':' := by
    rintro rfl
    have hmem : ':' ∈ u.dropWhile Text.isBlank := hx ▸ List.mem_cons_self
    exact hu ((List.dropWhile_suffix _).subset hmem)
  have hskip : Text.skipBlanks (u ++ ':' :: rest) = x :: (xs ++ ':' :: rest) := by
    unfold Text.skipBlanks
    rw [List.dropWhile_append, hx]
    rfl
  rw [hskip, Text.after?, if_neg hcolon]

/-- Only the name of an argument can be read right before the first colon of a text. -/
theorem argument?_append (hname : ':' ∉ name.toList) (hu : ':' ∉ u)
    (hlast : u.getLast?.any Text.isBlank = false) :
    argument? name (u ++ ':' :: rest) =
      if u = name.toList then some (Text.skipBlanks rest) else none := by
  unfold argument?
  by_cases hprefix : name.toList <+: u
  · obtain ⟨gap, rfl⟩ := hprefix
    rw [List.append_assoc, Text.after?_append, Option.bind_eq_bind, Option.bind_some]
    by_cases hgap : gap = []
    · subst hgap
      rw [List.append_nil, if_pos rfl]
      rfl
    · rw [List.getLast?_append_of_ne_nil _ hgap] at hlast
      rw [after?_colon_of_gap hgap (fun h => hu (List.mem_append_right _ h)) hlast,
        if_neg (by simpa using hgap)]
      rfl
  · have hnone : Text.after? name.toList (u ++ ':' :: rest) = none := by
      rw [Option.eq_none_iff_forall_ne_some]
      intro r hr
      have heq := Text.after?_eq_some_iff.1 hr
      exact hprefix ((Text.prefix_append_cons_iff hname).1 ⟨r, heq.symm⟩)
    rw [hnone, if_neg (by rintro rfl; exact hprefix List.prefix_rfl)]
    rfl

/-- A search for an argument passes over a text up to its first colon, if another letter stands in
front of it than the name ends with. -/
theorem firstAt?_append_colon {c d : Char} (hread : ∀ cs, argument? name cs = none → read cs = none)
    (hname : ':' ∉ name.toList) (hd : name.toList.getLast? = some d) (hu : ':' ∉ u)
    (hc : u.getLast? = some c) (hblank : Text.isBlank c = false) (hne : c ≠ d) :
    Text.firstAt? read (u ++ ':' :: rest) = Text.firstAt? read rest := by
  refine Text.firstAt?_append_cons hd (by simpa [hc] using hne) ?_
  rintro w ⟨t, rfl⟩ hw
  refine hread _ ?_
  have hlast : w.getLast?.any Text.isBlank = false := by
    cases hx : w.getLast? with
    | none => rfl
    | some x =>
      rw [List.getLast?_append, hx] at hc
      rw [Option.any_some, Option.some.inj hc, hblank]
  rw [argument?_append hname (fun h => hu (List.mem_append_right t h)) hlast, if_neg hw]

/-- A search for an argument finds it where its name stands in front of the first colon. -/
theorem firstAt?_append_argument {d : Char} {a : α}
    (hread : ∀ cs, argument? name cs = none → read cs = none) (hname : ':' ∉ name.toList)
    (hd : name.toList.getLast? = some d) (hblank : Text.isBlank d = false) (hu : ':' ∉ u)
    (ha : read (name.toList ++ ':' :: rest) = some a) :
    Text.firstAt? read (u ++ name.toList ++ ':' :: rest) = some a := by
  rw [List.append_assoc, Text.firstAt?_append, Text.firstAt?_of_some ha]
  intro w hne hw
  refine hread _ ?_
  rw [← List.append_assoc, argument?_append hname, if_neg]
  · simpa using hne
  · exact not_mem_append (fun h => hu (hw.subset h)) hname
  · rw [List.getLast?_append, hd]
    exact hblank

theorem argument?_self {d : Char} (hname : ':' ∉ name.toList)
    (hd : name.toList.getLast? = some d) (hblank : Text.isBlank d = false) :
    argument? name (name.toList ++ ':' :: ' ' :: rest) = some (Text.skipBlanks rest) := by
  rw [argument?_append hname hname (by rw [hd]; exact hblank), if_pos rfl]
  rfl

theorem textArgument?_eq_none {name : String} (cs : List Char) (h : argument? name cs = none) :
    textArgument? name cs = none := by
  rw [textArgument?, h]
  rfl

theorem listArgument?_eq_none {name : String} (cs : List Char) (h : argument? name cs = none) :
    listArgument? name cs = none := by
  rw [listArgument?, h]
  rfl

/-- The quoted value of an argument is read where its name stands. -/
theorem textArgument?_self {d : Char} (hname : ':' ∉ name.toList)
    (hd : name.toList.getLast? = some d) (hblank : Text.isBlank d = false) (hu : '\'' ∉ u)
    (hne : u ≠ []) :
    textArgument? name (name.toList ++ ':' :: ' ' :: (inQuotes u ++ rest)) = some u := by
  have hskip : Text.skipBlanks (inQuotes u ++ rest) = inQuotes u ++ rest :=
    List.dropWhile_cons_of_neg (by decide)
  rw [textArgument?, argument?_self hname hd hblank, Option.bind_eq_bind, Option.bind_some, hskip,
    quotedWord?_inQuotes hu hne]
  rfl

/-- The list that is the value of an argument is read where its name stands. -/
theorem listArgument?_self {d : Char} (hname : ':' ∉ name.toList)
    (hd : name.toList.getLast? = some d) (hblank : Text.isBlank d = false) (hu : ']' ∉ u) :
    listArgument? name (name.toList ++ ':' :: ' ' :: ('[' :: u ++ ']' :: rest)) = some u := by
  have hskip : Text.skipBlanks ('[' :: u ++ ']' :: rest) = '[' :: u ++ ']' :: rest :=
    List.dropWhile_cons_of_neg (by decide)
  rw [listArgument?, argument?_self hname hd hblank, Option.bind_eq_bind, Option.bind_some, hskip,
    bracketed?_append hu]
  rfl

/-! ### Names behind keywords -/

theorem isBlank_of_isNameChar {c : Char} (h : isNameChar c = true) : Text.isBlank c = false := by
  have hrange : 48 ≤ c.toNat ∧ c.toNat ≤ 122 := by
    have hclasses : (decide (65 ≤ c.val ∧ c.val ≤ 90) || (97 ≤ c.val && c.val ≤ 122) ||
        (48 ≤ c.val && c.val ≤ 57) || c == '_') = true := h
    simp only [Bool.or_eq_true, Bool.and_eq_true, decide_eq_true_eq, beq_iff_eq] at hclasses
    rcases hclasses with h | rfl
    · simp only [UInt32.le_iff_toNat_le] at h
      change ((65 ≤ c.toNat ∧ c.toNat ≤ 90) ∨ (97 ≤ c.toNat ∧ c.toNat ≤ 122)) ∨
        (48 ≤ c.toNat ∧ c.toNat ≤ 57) at h
      omega
    · decide
  unfold Text.isBlank
  simp only [Bool.or_eq_false_iff, Bool.and_eq_false_iff, decide_eq_false_iff_not, beq_eq_false_iff_ne]
  omega

/-- Only the keyword itself can be read right before the first blank of a text. -/
theorem nameAfter?_append {b : Char} (hkeyword : keyword.toList.any Text.isBlank = false)
    (hu : u.any Text.isBlank = false) (hb : Text.isBlank b = true) (hne : u ≠ keyword.toList) :
    nameAfter? keyword (u ++ b :: rest) = none := by
  unfold nameAfter?
  cases hafter : Text.after? keyword.toList (u ++ b :: rest) with
  | none => rfl
  | some r =>
    have heq := Text.after?_eq_some_iff.1 hafter
    have hmem : b ∉ keyword.toList := fun hmem => List.any_eq_false.1 hkeyword b hmem hb
    obtain ⟨gap, rfl⟩ := (Text.prefix_append_cons_iff hmem).1 ⟨r, heq.symm⟩
    rw [List.append_assoc] at heq
    obtain rfl := List.append_cancel_left heq
    cases gap with
    | nil => exact (hne (List.append_nil _)).elim
    | cons c gap =>
      -- no blank follows the keyword
      have hc := List.any_eq_false.1 hu c (by simp)
      have hskip : Text.skipBlanks (c :: gap ++ b :: rest) = c :: gap ++ b :: rest :=
        List.dropWhile_cons_of_neg (by simp [hc])
      rw [Option.bind_eq_bind, Option.bind_some, hskip]
      simp only [Nat.lt_irrefl, decide_false, Bool.false_and, Bool.false_eq_true, if_false]

/-- The name behind a keyword is read up to the first character that no name holds. -/
theorem nameAfter?_self {after : List Char} (hu : ∀ c ∈ u, isNameChar c = true) (hne : u ≠ [])
    (hafter : after.head?.any isNameChar = false) :
    nameAfter? keyword (keyword.toList ++ ' ' :: (u ++ after)) = some (u, after) := by
  obtain ⟨c, cs, rfl⟩ := List.exists_cons_of_ne_nil hne
  have hskip : Text.skipBlanks (' ' :: (c :: cs ++ after)) = c :: cs ++ after := by
    have hc := isBlank_of_isNameChar (hu c List.mem_cons_self)
    show (c :: (cs ++ after)).dropWhile Text.isBlank = _
    exact List.dropWhile_cons_of_neg (by simp [hc])
  have hstop : (c :: cs ++ after).takeWhile isNameChar = c :: cs ∧
      (c :: cs ++ after).dropWhile isNameChar = after := by
    cases after with
    | nil =>
      rw [List.append_nil]
      exact ⟨List.takeWhile_eq_self_iff.2 hu, List.dropWhile_eq_nil_iff.2 hu⟩
    | cons x after =>
      have hx : isNameChar x = false := hafter
      exact ⟨takeWhile_append_cons hu hx, dropWhile_append_cons hu hx⟩
  unfold nameAfter?
  rw [Text.after?_append, Option.bind_eq_bind, Option.bind_some]
  simp only [hskip, hstop]
  simp

/-- A search for a name passes over a word that ends otherwise than the keyword. -/
theorem firstAt?_append_space {d : Char} (hread : ∀ cs, nameAfter? keyword cs = none → read cs = none)
    (hkeyword : keyword.toList.any Text.isBlank = false)
    (hd : keyword.toList.getLast? = some d) (hu : u.any Text.isBlank = false)
    (hne : u.getLast? ≠ some d) :
    Text.firstAt? read (u ++ ' ' :: rest) = Text.firstAt? read rest := by
  refine Text.firstAt?_append_cons hd hne fun w hw hword => hread _ ?_
  have hblank : w.any Text.isBlank = false :=
    List.any_eq_false.2 fun c hc => List.any_eq_false.1 hu c (hw.subset hc)
  exact nameAfter?_append hkeyword hblank (by decide) hword

theorem className?_append_space (hu : u.any Text.isBlank = false)
    (hlast : u.getLast? ≠ some 's') : className? (u ++ ' ' :: rest) = className? rest := by
  refine firstAt?_append_space (fun cs hcs => ?_) (by decide)
    (show "class".toList.getLast? = some 's' by decide) hu hlast
  rw [hcs]
  rfl

theorem functionName?_append_space (hu : u.any Text.isBlank = false)
    (hlast : u.getLast? ≠ some 'n') : functionName? (u ++ ' ' :: rest) = functionName? rest := by
  refine firstAt?_append_space (fun cs hcs => ?_) (by decide)
    (show "function".toList.getLast? = some 'n' by decide) hu hlast
  rw [hcs]
  rfl

/-! ### Attributes -/

def attributeStart (name : String) : List Char := '#' :: '[' :: name.toList ++ ['(']

theorem attribute?_append (hu : ')' ∉ u) :
    attribute? name (attributeStart name ++ (u ++ [')', ']'])) = some u := by
  have hne := bne_of_not_mem hu
  unfold attribute?
  rw [← attributeStart, Text.after?_append, Option.bind_eq_bind, Option.bind_some,
    dropWhile_append_cons hne (by decide), takeWhile_append_cons hne (by decide)]
  rfl

/-- What starts with reading a word can only be read where the word stands. -/
theorem prefix_of_bind {cs : List Char} {f : List Char → Option α}
    (h : ((Text.after? word cs).bind f).isSome = true) : word <+: cs := by
  cases hafter : Text.after? word cs with
  | none =>
    rw [hafter] at h
    cases h
  | some rest => exact ⟨rest, (Text.after?_eq_some_iff.1 hafter).symm⟩

theorem prefix_of_attribute? {cs : List Char} (h : (attribute? name cs).isSome = true) :
    attributeStart name <+: cs :=
  prefix_of_bind h

theorem prefix_of_nameAfter? {cs : List Char} (h : (nameAfter? keyword cs).isSome = true) :
    keyword.toList <+: cs :=
  prefix_of_bind h

/-! ### Lines without a pattern -/

theorem groupPath?_eq_none (h : Text.contains (attributeStart "RouteGroup") u = false) :
    groupPath? u = none := by
  rw [groupPath?, Text.firstAt?_eq_none (fun _ => prefix_of_attribute?) h]
  rfl

theorem routeAttribute?_eq_none (h : Text.contains (attributeStart "Route") u = false) :
    routeAttribute? u = none :=
  Text.firstAt?_eq_none (fun _ => prefix_of_attribute?) h

theorem className?_eq_none (h : Text.contains "class".toList u = false) :
    className? u = none := by
  refine Text.firstAt?_eq_none (fun cs hcs => ?_) h
  rw [Option.isSome_map] at hcs
  exact prefix_of_nameAfter? hcs

end ApiReport.Route
