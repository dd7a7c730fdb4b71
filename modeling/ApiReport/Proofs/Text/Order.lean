import ApiReport.Text.Units
import Mathlib.Data.List.Sort

/-!
# The order of texts

Every text is read back from its units, so that different texts have different units and the order
of units is a total order of texts. A stable sort by a total order depends only on which elements a
list holds, not on how they are arranged; elements that stand in each other's order either way keep
their arrangement.

Key definitions: `Text.IsOrder`, `Text.IsLex`, `Text.UnitsLT`, `Text.isTie`.
Key theorems: `Text.ofCodes_unitsOf`, `Text.isOrder_unitsLE`, `Text.unitsLE_iff`,
`Text.mergeSort_eq_of_perm`, `Text.filter_mergeSort`, `Text.eq_of_pairwise_of_ties`,
`Text.mergeSort_filter`, `Text.sortByKey_eq_mergeSort`, `Text.map_fst_sortByKey`,
`Text.sortByKey_pairwise`, `Text.nodup_eraseDups`.
-/
namespace ApiReport.Text

variable {α : Type} {le : α → α → Bool}

/-! ### Texts and their units -/

theorem toNat_range (c : Char) : c.toNat < 0xD800 ∨ (0xDFFF < c.toNat ∧ c.toNat < 0x110000) :=
  c.valid

theorem ofCodes_units_append (c : Char) (ns : List Nat) :
    ofCodes (units c ++ ns) = c :: ofCodes ns := by
  have hc := toNat_range c
  unfold units
  by_cases h : c.toNat < 0x10000
  · have hs : isScalar c.toNat = true := by
      unfold isScalar
      simp only [Bool.or_eq_true, Bool.and_eq_true, decide_eq_true_eq]
      exact hc
    simp only [if_pos h, List.singleton_append]
    cases ns with
    | nil => simp only [ofCodes, hs, if_true, Char.ofNat_toNat]
    | cons m ns =>
      rw [ofCodes, if_neg, if_pos hs, Char.ofNat_toNat]
      simp only [Bool.and_eq_true, decide_eq_true_eq]
      omega
  · have hn : 0x10000 + (0xD800 + (c.toNat - 0x10000) / 0x400 - 0xD800) * 0x400 +
        (0xDC00 + (c.toNat - 0x10000) % 0x400 - 0xDC00) = c.toNat := by omega
    simp only [if_neg h, List.cons_append, List.nil_append]
    rw [ofCodes, if_pos, hn, Char.ofNat_toNat]
    simp only [Bool.and_eq_true, decide_eq_true_eq]
    omega

/-- A text is read back from its units. -/
theorem ofCodes_unitsOf (s : String) : ofCodes (unitsOf s) = s.toList := by
  unfold unitsOf
  induction s.toList with
  | nil => rfl
  | cons c cs ih => rw [List.flatMap_cons, ofCodes_units_append, ih]

theorem unitsOf_injective {a b : String} (h : unitsOf a = unitsOf b) : a = b := by
  apply String.toList_injective
  rw [← ofCodes_unitsOf a, h, ofCodes_unitsOf]

/-! ### Total orders -/

/-- A total order as a test. -/
structure IsOrder (le : α → α → Bool) : Prop where
  total : ∀ a b, le a b = true ∨ le b a = true
  trans : ∀ {a b c}, le a b = true → le b c = true → le a c = true
  antisymm : ∀ {a b}, le a b = true → le b a = true → a = b

theorem IsOrder.refl (h : IsOrder le) (a : α) : le a a = true := (h.total a a).elim id id

theorem isOrder_natLE : IsOrder fun a b : Nat => decide (a ≤ b) where
  total a b := by simpa using Nat.le_total a b
  trans h₁ h₂ := by
    rw [decide_eq_true_eq] at h₁ h₂ ⊢
    exact Nat.le_trans h₁ h₂
  antisymm h₁ h₂ := by
    rw [decide_eq_true_eq] at h₁ h₂
    exact Nat.le_antisymm h₁ h₂

/-- An order along a map that keeps elements apart. -/
theorem IsOrder.comap {β : Type} (h : IsOrder le) {f : β → α} (hf : ∀ {a b}, f a = f b → a = b) :
    IsOrder fun a b => le (f a) (f b) where
  total a b := h.total (f a) (f b)
  trans h₁ h₂ := h.trans h₁ h₂
  antisymm h₁ h₂ := hf (h.antisymm h₁ h₂)

/-- A test that compares lists element by element, and lets the shorter one come first. -/
structure IsLex (le : α → α → Bool) (lex : List α → List α → Bool) : Prop where
  nil_left : ∀ bs, lex [] bs = true
  nil_right : ∀ a as, lex (a :: as) [] = false
  cons_self : ∀ a as bs, lex (a :: as) (a :: bs) = lex as bs
  cons_cons : ∀ {a b} as bs, a ≠ b → lex (a :: as) (b :: bs) = le a b

namespace IsLex

variable {lex : List α → List α → Bool}

theorem total (h : IsLex le lex) (o : IsOrder le) :
    ∀ as bs, lex as bs = true ∨ lex bs as = true
  | [], bs => .inl (h.nil_left bs)
  | a :: as, [] => .inr (h.nil_left _)
  | a :: as, b :: bs => by
    by_cases hab : a = b
    · subst hab
      rw [h.cons_self, h.cons_self]
      exact total h o as bs
    · rw [h.cons_cons as bs hab, h.cons_cons bs as (Ne.symm hab)]
      exact o.total a b

theorem antisymm (h : IsLex le lex) (o : IsOrder le) :
    ∀ {as bs}, lex as bs = true → lex bs as = true → as = bs
  | [], [], _, _ => rfl
  | [], b :: bs, _, h₂ => by rw [h.nil_right] at h₂; cases h₂
  | a :: as, [], h₁, _ => by rw [h.nil_right] at h₁; cases h₁
  | a :: as, b :: bs, h₁, h₂ => by
    by_cases hab : a = b
    · subst hab
      rw [h.cons_self] at h₁ h₂
      rw [antisymm h o h₁ h₂]
    · rw [h.cons_cons as bs hab] at h₁
      rw [h.cons_cons bs as (Ne.symm hab)] at h₂
      exact absurd (o.antisymm h₁ h₂) hab

theorem trans (h : IsLex le lex) (o : IsOrder le) :
    ∀ {as bs cs}, lex as bs = true → lex bs cs = true → lex as cs = true
  | [], _, cs, _, _ => h.nil_left cs
  | a :: as, [], _, h₁, _ => by rw [h.nil_right] at h₁; cases h₁
  | a :: as, b :: bs, [], _, h₂ => by rw [h.nil_right] at h₂; cases h₂
  | a :: as, b :: bs, c :: cs, h₁, h₂ => by
    by_cases hab : a = b
    · subst hab
      by_cases hac : a = c
      · subst hac
        rw [h.cons_self] at h₁ h₂ ⊢
        exact trans h o h₁ h₂
      · rw [h.cons_cons _ _ hac] at h₂ ⊢
        exact h₂
    · rw [h.cons_cons _ _ hab] at h₁
      by_cases hbc : b = c
      · subst hbc
        rw [h.cons_cons _ _ hab]
        exact h₁
      · rw [h.cons_cons _ _ hbc] at h₂
        -- the first elements cannot meet again, else all three would be the same
        have hac : a ≠ c := by
          rintro rfl
          exact hab (o.antisymm h₁ h₂)
        rw [h.cons_cons _ _ hac]
        exact o.trans h₁ h₂

/-- Lists of ordered elements are ordered. -/
theorem isOrder (h : IsLex le lex) (o : IsOrder le) : IsOrder lex where
  total := h.total o
  trans := h.trans o
  antisymm := h.antisymm o

end IsLex

theorem isLex_lexLE : IsLex (fun a b => decide (a ≤ b)) lexLE where
  nil_left _ := by rw [lexLE]
  nil_right _ _ := by rw [lexLE]
  cons_self _ _ _ := by rw [lexLE, if_pos rfl]
  cons_cons {a b} _ _ h := by
    rw [lexLE, if_neg h, decide_eq_decide]
    exact ⟨Nat.le_of_lt, fun hle => Nat.lt_of_le_of_ne hle h⟩

theorem isOrder_unitsLE : IsOrder unitsLE :=
  (isLex_lexLE.isOrder isOrder_natLE).comap unitsOf_injective

/-- A text stands before another one in the lexicographic order of units. -/
def UnitsLT (a b : String) : Prop := List.Lex (· < ·) (unitsOf a) (unitsOf b)

theorem lexLE_iff : ∀ {as bs : List Nat}, lexLE as bs = true ↔ as = bs ∨ List.Lex (· < ·) as bs
  | [], [] => by simp [lexLE]
  | [], b :: bs => by simp [lexLE]
  | a :: as, [] => by simp [lexLE]
  | a :: as, b :: bs => by
    rw [List.cons_lex_cons_iff, lexLE]
    by_cases hab : a = b
    · subst hab
      simp [lexLE_iff]
    · simp [hab]

theorem unitsLE_iff {a b : String} : unitsLE a b = true ↔ a = b ∨ UnitsLT a b := by
  rw [unitsLE, lexLE_iff]
  exact or_congr_left ⟨unitsOf_injective, congrArg unitsOf⟩

/-! ### Stable sorting -/

theorem pairwise_mergeSort (total : ∀ a b, le a b = true ∨ le b a = true)
    (trans : ∀ a b c, le a b = true → le b c = true → le a c = true) (xs : List α) :
    (xs.mergeSort le).Pairwise fun a b => le a b = true :=
  List.pairwise_mergeSort trans (fun a b => by simpa using total a b) xs

/-- A list sorted by a total order is the same however its elements were arranged. -/
theorem mergeSort_eq_of_perm (o : IsOrder le) {xs ys : List α} (h : xs.Perm ys) :
    xs.mergeSort le = ys.mergeSort le := by
  have sorted : ∀ zs : List α, (zs.mergeSort le).Pairwise fun a b => le a b = true :=
    pairwise_mergeSort o.total fun _ _ _ => o.trans
  refine List.Perm.eq_of_pairwise (fun a b _ _ => o.antisymm) (sorted xs) (sorted ys) ?_
  exact (xs.mergeSort_perm le).trans (h.trans (ys.mergeSort_perm le).symm)

theorem pairwise_filter {p : α → Bool} (hp : ∀ a b, p a = true → p b = true → le a b = true)
    (xs : List α) : (xs.filter p).Pairwise fun a b => le a b = true := by
  refine List.pairwise_iff_getElem.2 fun i j hi hj _ => hp _ _ ?_ ?_
  · exact (List.mem_filter.1 (List.getElem_mem hi)).2
  · exact (List.mem_filter.1 (List.getElem_mem hj)).2

theorem filter_eq_of_sublist {p : α → Bool} {xs ys : List α} (hperm : ys.Perm xs)
    (h : (xs.filter p).Sublist ys) : ys.filter p = xs.filter p := by
  have hsub : (xs.filter p).Sublist (ys.filter p) := by
    have hfiltered := h.filter p
    rwa [List.filter_filter, List.filter_congr (q := p) (by simp)] at hfiltered
  exact (hsub.eq_of_length (hperm.filter p).length_eq.symm).symm

/-- Elements that may stand in either order keep the order that they had. -/
theorem filter_mergeSort (total : ∀ a b, le a b = true ∨ le b a = true)
    (trans : ∀ a b c, le a b = true → le b c = true → le a c = true) {p : α → Bool}
    (hp : ∀ a b, p a = true → p b = true → le a b = true) (xs : List α) :
    (xs.mergeSort le).filter p = xs.filter p := by
  refine filter_eq_of_sublist (xs.mergeSort_perm le) ?_
  exact List.sublist_mergeSort trans (fun a b => by simpa using total a b) (pairwise_filter hp xs)
    List.filter_sublist

/-- Elements that may stand in either order. -/
def isTie (le : α → α → Bool) (a b : α) : Bool := le a b && le b a

theorem le_of_isTie
    (trans : ∀ a b c, le a b = true → le b c = true → le a c = true) (a b c : α)
    (hb : isTie le a b = true) (hc : isTie le a c = true) : le b c = true := by
  simp only [isTie, Bool.and_eq_true] at hb hc
  exact trans b a c hb.2 hc.1

theorem isTie_self (refl : ∀ a, le a a = true) (a : α) : isTie le a a = true := by
  rw [isTie, refl, Bool.and_self]

theorem mem_of_ties (refl : ∀ a, le a a = true) {xs ys : List α}
    (h : ∀ a, xs.filter (isTie le a) = ys.filter (isTie le a)) {x : α} (hx : x ∈ xs) : x ∈ ys := by
  have hmem : x ∈ xs.filter (isTie le x) := List.mem_filter.2 ⟨hx, isTie_self refl x⟩
  rw [h x] at hmem
  exact (List.mem_filter.1 hmem).1

/-- Two sorted lists are the same if ties are arranged in the same way in both. -/
theorem eq_of_pairwise_of_ties (refl : ∀ a, le a a = true) : ∀ {xs ys : List α},
    xs.Pairwise (le · ·) → ys.Pairwise (le · ·) →
    (∀ a, xs.filter (isTie le a) = ys.filter (isTie le a)) → xs = ys
  | [], [], _, _, _ => rfl
  | [], y :: ys, _, _, h => by
    have hy : y ∈ [] := mem_of_ties refl (fun a => (h a).symm) List.mem_cons_self
    cases hy
  | x :: xs, [], _, _, h => by
    have hx : x ∈ [] := mem_of_ties refl h List.mem_cons_self
    cases hx
  | x :: xs, y :: ys, hxs, hys, h => by
    obtain ⟨hx, hxs'⟩ := List.pairwise_cons.1 hxs
    obtain ⟨hy, hys'⟩ := List.pairwise_cons.1 hys
    -- each of the two first elements is found in the other list, so that they are a tie
    have hxy : le x y = true := by
      rcases List.mem_cons.1 (mem_of_ties refl (fun a => (h a).symm) List.mem_cons_self) with
        rfl | hmem
      · exact refl y
      · exact hx y hmem
    have hyx : le y x = true := by
      rcases List.mem_cons.1 (mem_of_ties refl h List.mem_cons_self) with rfl | hmem
      · exact refl x
      · exact hy x hmem
    have htie : isTie le x y = true := by rw [isTie, hxy, hyx, Bool.and_self]
    have hheads := h x
    rw [List.filter_cons_of_pos (isTie_self refl x), List.filter_cons_of_pos htie] at hheads
    obtain rfl := (List.cons.inj hheads).1
    refine congrArg (x :: ·) (eq_of_pairwise_of_ties refl hxs' hys' fun a => ?_)
    have ha := h a
    rw [List.filter_cons, List.filter_cons] at ha
    split at ha
    · exact (List.cons.inj ha).2
    · exact ha

/-- A stable sort and a filter can be taken in either order. -/
theorem mergeSort_filter (total : ∀ a b, le a b = true ∨ le b a = true)
    (trans : ∀ a b c, le a b = true → le b c = true → le a c = true) (p : α → Bool)
    (xs : List α) : (xs.filter p).mergeSort le = (xs.mergeSort le).filter p := by
  have sorted : ∀ zs : List α, (zs.mergeSort le).Pairwise fun a b => le a b = true :=
    pairwise_mergeSort total trans
  have hties : ∀ (zs : List α) a, (zs.mergeSort le).filter (isTie le a) = zs.filter (isTie le a) :=
    fun zs a => filter_mergeSort total trans (le_of_isTie trans a) zs
  refine eq_of_pairwise_of_ties (fun a => (total a a).elim id id) (sorted _)
    ((sorted xs).filter p) fun a => ?_
  rw [hties, List.filter_filter, List.filter_filter]
  simp only [Bool.and_comm (isTie le a _)]
  rw [← List.filter_filter, ← List.filter_filter, hties]

/-! ### Sorting by textual keys -/

section

variable {key : α → String}

theorem insertByKey_eq_orderedInsert (key : α → String) (x : α) : ∀ ys : List α,
    insertByKey key x ys = ys.orderedInsert (fun a b => unitsLE (key a) (key b) = true) x
  | [] => rfl
  | y :: ys => by
    rw [insertByKey, List.orderedInsert_cons, insertByKey_eq_orderedInsert key x ys]

theorem sortByKey_eq_insertionSort (key : α → String) : ∀ xs : List α,
    sortByKey key xs = xs.insertionSort fun a b => unitsLE (key a) (key b) = true
  | [] => rfl
  | x :: xs => by
    rw [List.insertionSort_cons, ← sortByKey_eq_insertionSort key xs,
      ← insertByKey_eq_orderedInsert]
    rfl

theorem pairwise_sortByKey (key : α → String) (xs : List α) :
    (sortByKey key xs).Pairwise fun a b => unitsLE (key a) (key b) = true := by
  have htotal : Std.Total fun a b : α => unitsLE (key a) (key b) = true :=
    ⟨fun a b => isOrder_unitsLE.total (key a) (key b)⟩
  have htrans : IsTrans α fun a b => unitsLE (key a) (key b) = true :=
    ⟨fun _ _ _ => isOrder_unitsLE.trans⟩
  rw [sortByKey_eq_insertionSort]
  exact List.pairwise_insertionSort _ xs

theorem filter_sortByKey {p : α → Bool}
    (hp : ∀ a b, p a = true → p b = true → unitsLE (key a) (key b) = true) (xs : List α) :
    (sortByKey key xs).filter p = xs.filter p := by
  refine filter_eq_of_sublist (sortByKey_perm key xs) ?_
  rw [sortByKey_eq_insertionSort]
  exact List.sublist_insertionSort (pairwise_filter hp xs) List.filter_sublist

/-- Sorting by keys is the stable sort by their order. -/
theorem sortByKey_eq_mergeSort (key : α → String) (xs : List α) :
    sortByKey key xs = xs.mergeSort fun a b => unitsLE (key a) (key b) := by
  have htotal : ∀ a b : α, unitsLE (key a) (key b) = true ∨ unitsLE (key b) (key a) = true :=
    fun a b => isOrder_unitsLE.total (key a) (key b)
  have htrans : ∀ a b c : α, unitsLE (key a) (key b) = true → unitsLE (key b) (key c) = true →
      unitsLE (key a) (key c) = true := fun _ _ _ => isOrder_unitsLE.trans
  have hsorted := pairwise_mergeSort htotal htrans xs
  refine eq_of_pairwise_of_ties (fun a => (htotal a a).elim id id) (pairwise_sortByKey key xs)
    hsorted fun a => ?_
  rw [filter_sortByKey (le_of_isTie htrans a), filter_mergeSort htotal htrans]
  exact le_of_isTie htrans a

/-- The values of entries can be read before they are sorted or after. -/
theorem sortByKey_map {β γ : Type} (read : β → γ) (entries : List (String × β)) :
    sortByKey Prod.fst (entries.map fun e => (e.1, read e.2)) =
      (sortByKey Prod.fst entries).map fun e => (e.1, read e.2) := by
  rw [sortByKey_eq_mergeSort, sortByKey_eq_mergeSort]
  exact (List.map_mergeSort (f := fun e : String × β => (e.1, read e.2)) fun _ _ _ _ => rfl).symm

/-- The keys of sorted entries are the same however they were arranged. -/
theorem map_fst_sortByKey {β γ : Type} {xs : List (String × β)} {ys : List (String × γ)}
    (h : (xs.map Prod.fst).Perm (ys.map Prod.fst)) :
    (sortByKey Prod.fst xs).map Prod.fst = (sortByKey Prod.fst ys).map Prod.fst := by
  rw [sortByKey_eq_mergeSort, sortByKey_eq_mergeSort]
  rw [List.map_mergeSort (r := fun a b : String × β => unitsLE a.1 b.1) (s := unitsLE)
      fun _ _ _ _ => rfl,
    List.map_mergeSort (r := fun a b : String × γ => unitsLE a.1 b.1) (s := unitsLE)
      fun _ _ _ _ => rfl]
  exact mergeSort_eq_of_perm isOrder_unitsLE h

/-- Sorted by keys that are all different, a list is strictly ascending. -/
theorem sortByKey_pairwise {xs : List α} (h : (xs.map key).Nodup) :
    (sortByKey key xs).Pairwise fun a b => UnitsLT (key a) (key b) := by
  have hne : (sortByKey key xs).Pairwise fun a b => key a ≠ key b :=
    List.pairwise_map.1 (((sortByKey_perm key xs).map key).nodup_iff.2 h)
  refine (pairwise_sortByKey key xs).imp₂ (fun a b hab hkey => ?_) hne
  exact (unitsLE_iff.1 hab).resolve_left hkey

/-- Texts are sorted alike however they were arranged. -/
theorem sortByKey_eq_of_perm {xs ys : List String} (h : xs.Perm ys) :
    sortByKey id xs = sortByKey id ys := by
  rw [sortByKey_eq_mergeSort, sortByKey_eq_mergeSort]
  exact mergeSort_eq_of_perm isOrder_unitsLE h

/-- Texts can be sorted before some are left out or after. -/
theorem sortByKey_filter (p : String → Bool) (xs : List String) :
    sortByKey id (xs.filter p) = (sortByKey id xs).filter p := by
  rw [sortByKey_eq_mergeSort, sortByKey_eq_mergeSort]
  exact mergeSort_filter isOrder_unitsLE.total (fun _ _ _ => isOrder_unitsLE.trans) p xs

end

theorem nodup_eraseDups [BEq α] [LawfulBEq α] : ∀ xs : List α, xs.eraseDups.Nodup
  | [] => by simp
  | x :: xs => by
    rw [List.eraseDups_cons, List.nodup_cons]
    refine ⟨fun h => ?_, nodup_eraseDups (xs.filter fun b => !b == x)⟩
    have := (List.mem_filter.1 (List.mem_eraseDups.1 h)).2
    simp at this
termination_by xs => xs.length
decreasing_by
  have := List.length_filter_le (fun b => !b == x) xs
  simp only [List.length_cons]
  omega

theorem eraseDups_filter [BEq α] [LawfulBEq α] (p : α → Bool) : ∀ xs : List α,
    (xs.filter p).eraseDups = xs.eraseDups.filter p
  | [] => by simp
  | x :: xs => by
    have ih := eraseDups_filter p (xs.filter fun b => !b == x)
    rw [List.eraseDups_cons]
    by_cases hx : p x = true
    · rw [List.filter_cons_of_pos hx, List.filter_cons_of_pos hx, List.eraseDups_cons, ← ih,
        List.filter_filter, List.filter_filter]
      simp only [Bool.and_comm]
    · rw [List.filter_cons_of_neg hx, List.filter_cons_of_neg hx, ← ih, List.filter_filter]
      congr 1
      refine List.filter_congr fun b _ => ?_
      by_cases hb : b = x
      · subst hb; simp [hx]
      · simp [hb]
termination_by xs => xs.length
decreasing_by
  have := List.length_filter_le (fun b => !b == x) xs
  simp only [List.length_cons]
  omega

end ApiReport.Text
