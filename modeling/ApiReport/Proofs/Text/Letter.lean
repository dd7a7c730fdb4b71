import ApiReport.Text.Fold
import Mathlib.Tactic.SplitIfs

/-!
# Letters of ASCII

The case of a letter of ASCII as arithmetic on code points, and what folding does: a character of
ASCII is folded to its upper case, and any other character is folded to one that lies outside of
ASCII as well. So what is compared with a text in small letters is equal to it if and only if it is
equal in small letters of ASCII; no other letter is taken for one of ASCII.

Key definitions: `IsSmallLetter`, `IsNoCapital`.
Key theorems: `toLower_eq_iff`, `fold_eq_fold_iff`, `map_fold_eq_iff`.
-/
namespace ApiReport.Text

theorem toNat_toLower (c : Char) :
    c.toLower.toNat = if 65 ≤ c.toNat ∧ c.toNat ≤ 90 then c.toNat + 32 else c.toNat := by
  unfold Char.toLower
  by_cases h : 65 ≤ c.toNat ∧ c.toNat ≤ 90
  · have hval : c.val ≥ 'A'.val ∧ c.val ≤ 'Z'.val := h
    rw [if_pos h, dif_pos hval]
    show (c.val + ('a'.val - 'A'.val)).toNat = c.toNat + 32
    have hlt : c.val.toNat + 32 < 2 ^ 32 := Nat.lt_of_le_of_lt (Nat.add_le_add_right h.2 32) (by decide)
    rw [UInt32.toNat_add]
    exact Nat.mod_eq_of_lt hlt
  · have hval : ¬ (c.val ≥ 'A'.val ∧ c.val ≤ 'Z'.val) := h
    rw [if_neg h, dif_neg hval]

theorem toNat_toUpper (c : Char) :
    c.toUpper.toNat = if 97 ≤ c.toNat ∧ c.toNat ≤ 122 then c.toNat - 32 else c.toNat := by
  unfold Char.toUpper
  by_cases h : 97 ≤ c.toNat ∧ c.toNat ≤ 122
  · have hval : 'a'.val ≤ c.val ∧ c.val ≤ 'z'.val := h
    rw [if_pos h, dif_pos hval]
    show (c.val + ('A'.val - 'a'.val)).toNat = c.toNat - 32
    have hdistance : ('A'.val - 'a'.val).toNat = 2 ^ 32 - 32 := rfl
    have hnat : c.val.toNat = c.toNat := rfl
    rw [UInt32.toNat_add, hdistance, hnat]
    omega
  · have hval : ¬ ('a'.val ≤ c.val ∧ c.val ≤ 'z'.val) := h
    rw [if_neg h, dif_neg hval]

def IsSmallLetter (w : Char) : Prop := 97 ≤ w.toNat ∧ w.toNat ≤ 122

instance : DecidablePred IsSmallLetter := fun _ => inferInstanceAs (Decidable (_ ∧ _))

theorem toLower_eq_iff {c w : Char} (hw : IsSmallLetter w) :
    c.toLower = w ↔ c = w ∨ c = w.toUpper := by
  unfold IsSmallLetter at hw
  rw [← Char.toNat_inj, ← Char.toNat_inj, ← Char.toNat_inj, toNat_toLower, toNat_toUpper,
    if_pos hw]
  split
  · omega
  · omega

/-- What is no small letter is the lower case of itself only. -/
theorem mem_of_mem_map_toLower {c : Char} (hc : ¬ IsSmallLetter c) {cs : List Char}
    (h : c ∈ cs.map Char.toLower) : c ∈ cs := by
  obtain ⟨a, ha, rfl⟩ := List.mem_map.1 h
  have hcapital : ¬ (65 ≤ a.toNat ∧ a.toNat ≤ 90) := by
    intro hcapital
    unfold IsSmallLetter at hc
    rw [toNat_toLower, if_pos hcapital] at hc
    omega
  have hsame : a.toLower = a := by
    rw [← Char.toNat_inj, toNat_toLower, if_neg hcapital]
  rwa [hsame]

/-! ### Folding -/

theorem fold_of_lt {c : Char} (h : c.toNat < 128) : fold c = c.toUpper := by
  have hupper : c.toUpper.toNat < 0x10000 := by
    rw [toNat_toUpper]
    split <;> omega
  rw [fold, upper_ascii h]
  exact if_pos ⟨by omega, hupper, .inl h⟩

theorem le_fold {c : Char} (h : 128 ≤ c.toNat) : 128 ≤ (fold c).toNat := by
  unfold fold
  split
  · split
    · omega
    · exact h
  · exact h

/-- A character of ASCII that is no capital letter. -/
def IsNoCapital (w : Char) : Prop := w.toNat < 128 ∧ ¬ (65 ≤ w.toNat ∧ w.toNat ≤ 90)

instance : DecidablePred IsNoCapital := fun _ => inferInstanceAs (Decidable (_ ∧ _))

theorem IsSmallLetter.isNoCapital {w : Char} (h : IsSmallLetter w) : IsNoCapital w := by
  unfold IsSmallLetter at h
  unfold IsNoCapital
  omega

theorem fold_eq_fold_iff {c w : Char} (hw : IsNoCapital w) : fold c = fold w ↔ c.toLower = w := by
  obtain ⟨hascii, hcapital⟩ := hw
  rw [← Char.toNat_inj, ← Char.toNat_inj, fold_of_lt hascii, toNat_toLower, toNat_toUpper]
  by_cases hc : c.toNat < 128
  · rw [fold_of_lt hc, toNat_toUpper]
    split_ifs <;> omega
  · have hfold : 128 ≤ (fold c).toNat := le_fold (Nat.not_lt.1 hc)
    split_ifs <;> omega

theorem map_fold_eq_iff {cs ws : List Char} (hws : ∀ w ∈ ws, IsNoCapital w) :
    cs.map fold = ws.map fold ↔ cs.map Char.toLower = ws := by
  induction cs generalizing ws with
  | nil => rw [List.map_nil, List.map_nil, eq_comm, List.map_eq_nil_iff, eq_comm]
  | cons c cs ih =>
    cases ws with
    | nil => simp
    | cons w ws =>
      obtain ⟨hw, hws⟩ := List.forall_mem_cons.1 hws
      rw [List.map_cons, List.map_cons, List.map_cons, List.cons.injEq, List.cons.injEq,
        fold_eq_fold_iff hw, ih hws]

end ApiReport.Text
