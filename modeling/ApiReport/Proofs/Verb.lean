import ApiReport.Proofs.Text.Letter
import ApiReport.Verb
import Mathlib.Data.List.Forall2

/-!
# Spellings of verbs

The lower case of a character outside of ASCII holds no letter of a verb: of the characters of ASCII
it can only hold `i`, from the dotted capital I, and `k`, from the Kelvin sign. So the texts that
spell a verb are those that differ from its key in the case of letters of ASCII only, and their
upper case is its method.

Key definitions: `Text.IsCaseVariant`.
Key theorems: `Text.eq_or_eq_of_mem_lower`, `Text.lowercase_eq_iff`, `Verb.ofAnyCase?_eq_some_iff`,
`Verb.uppercase_of_isCaseVariant`.
-/
namespace ApiReport

namespace Text

/-- A text that is spelt like a word but for the case of letters of ASCII. The word is given in
lower case. -/
def IsCaseVariant (s word : String) : Prop :=
  s.toList.Forall₂ (fun c w => c = w ∨ c = w.toUpper) word.toList

/-! ### Lower case outside of ASCII -/

/-- The Kelvin sign is the only character in a run whose lower case lies in ASCII. -/
theorem far_of_mem_lowerRuns : ∀ r ∈ lowerRuns,
    128 ≤ r.first + r.distance ∧
      (r.last + r.distance < 0xD800 ∨
        0xDFFF < r.first + r.distance ∧ r.last + r.distance < 0x110000) ∨
    r.first = 0x212A ∧ r.last = 0x212A ∧ r.distance = -8383 := by decide +kernel

theorem toNat_ofNat_of_valid {n : Nat} (h : n < 0xD800 ∨ 0xDFFF < n ∧ n < 0x110000) :
    (Char.ofNat n).toNat = n := by
  have hvalid : n.isValidChar := h
  rw [Char.ofNat, dif_pos hvalid]
  rfl

theorem eq_or_eq_of_mem_lower {c x : Char} (hc : 128 ≤ c.toNat) (hx : x ∈ lower c)
    (h : x.toNat < 128) : x = 'i' ∨ x = 'k' := by
  unfold lower at hx
  rw [if_neg (Nat.not_lt.2 hc)] at hx
  by_cases hdotted : c = '\u0130'
  · rw [if_pos hdotted] at hx
    rcases List.mem_pair.1 hx with rfl | rfl
    · exact .inl rfl
    · exact absurd h (by decide)
  · rw [if_neg hdotted] at hx
    cases hr : lowerRuns.find? fun r => r.holds c.toNat with
    | none =>
      simp only [hr] at hx
      rw [List.mem_singleton.1 hx] at h
      omega
    | some r =>
      simp only [hr] at hx
      have hholds := List.find?_some hr
      simp only [Run.holds, Bool.and_eq_true, decide_eq_true_eq] at hholds
      rcases far_of_mem_lowerRuns r (List.mem_of_find?_eq_some hr) with ⟨hfar, hvalid⟩ | hkelvin
      · rw [List.mem_singleton.1 hx, toNat_ofNat_of_valid (by omega)] at h
        omega
      · have hn : ((c.toNat : Int) + r.distance).toNat = 107 := by omega
        rw [hn] at hx
        exact .inr (List.mem_singleton.1 hx)

theorem lower_ne_nil (c : Char) : lower c ≠ [] := by
  unfold lower
  split
  · simp
  · split
    · simp
    · split <;> simp

/-- A letter of a verb is a small letter, and none of those that characters outside of ASCII can
have as their lower case. -/
def IsVerbLetter (w : Char) : Prop := IsSmallLetter w ∧ w ≠ 'i' ∧ w ≠ 'k'

theorem IsVerbLetter.lt {w : Char} (h : IsVerbLetter w) : w.toNat < 128 :=
  Nat.lt_of_le_of_lt h.1.2 (by decide)

/-- By induction on the text, each character of which gives at least one of the word. -/
theorem lowercase_eq_iff : ∀ {cs ws : List Char}, (∀ w ∈ ws, IsVerbLetter w) →
    (lowercase cs = ws ↔ cs.Forall₂ (fun c w => c = w ∨ c = w.toUpper) ws)
  | [], ws, _ => by
    rw [List.forall₂_nil_left_iff]
    exact eq_comm
  | c :: cs, ws, hws => by
    have hcons : lowercase (c :: cs) = lower c ++ lowercase cs := List.flatMap_cons
    rw [List.forall₂_cons_left_iff, hcons]
    constructor
    · intro h
      have hc : c.toNat < 128 := by
        by_contra hc
        obtain ⟨x, xs, hx⟩ := List.exists_cons_of_ne_nil (lower_ne_nil c)
        have hmem : x ∈ lower c := by rw [hx]; exact List.mem_cons_self
        have hw : IsVerbLetter x := hws x (h ▸ List.mem_append_left _ hmem)
        rcases eq_or_eq_of_mem_lower (Nat.not_lt.1 hc) hmem hw.lt with rfl | rfl
        · exact hw.2.1 rfl
        · exact hw.2.2 rfl
      rw [lower_ascii hc, List.singleton_append] at h
      subst h
      obtain ⟨hw, hws⟩ := List.forall_mem_cons.1 hws
      exact ⟨_, _, (toLower_eq_iff hw.1).1 rfl, (lowercase_eq_iff hws).1 rfl, rfl⟩
    · rintro ⟨w, ws, hcw, hrest, rfl⟩
      obtain ⟨hw, hws⟩ := List.forall_mem_cons.1 hws
      have hlower : c.toLower = w := (toLower_eq_iff hw.1).2 hcw
      have hc : c.toNat < 128 := by
        have hlt := hw.lt
        rw [← hlower, toNat_toLower] at hlt
        split at hlt
        · omega
        · exact hlt
      rw [lower_ascii hc, hlower, (lowercase_eq_iff hws).2 hrest, List.singleton_append]

/-- What is spelt like a word is the word in small letters. -/
theorem map_toLower_eq_iff {cs ws : List Char} (hws : ∀ w ∈ ws, IsSmallLetter w) :
    cs.map Char.toLower = ws ↔ cs.Forall₂ (fun c w => c = w ∨ c = w.toUpper) ws := by
  induction cs generalizing ws with
  | nil => rw [List.map_nil, List.forall₂_nil_left_iff, eq_comm]
  | cons c cs ih =>
    cases ws with
    | nil => simp
    | cons w ws =>
      obtain ⟨hw, hws⟩ := List.forall_mem_cons.1 hws
      rw [List.map_cons, List.cons.injEq, List.forall₂_cons, toLower_eq_iff hw, ih hws]

/-- The upper case of what is spelt like a word is that of the word. -/
theorem uppercase_of_forall₂ {cs ws : List Char} (hws : ∀ w ∈ ws, IsSmallLetter w)
    (h : cs.Forall₂ (fun c w => c = w ∨ c = w.toUpper) ws) :
    uppercase cs = ws.map Char.toUpper := by
  induction h with
  | nil => rfl
  | @cons c w cs ws hcw _ ih =>
    obtain ⟨hw, hws⟩ := List.forall_mem_cons.1 hws
    have hw' : 97 ≤ w.toNat ∧ w.toNat ≤ 122 := hw
    have hnat : c.toNat = w.toNat ∨ c.toNat = w.toNat - 32 := by
      rcases hcw with rfl | rfl
      · exact .inl rfl
      · rw [toNat_toUpper, if_pos hw']
        exact .inr rfl
    have hupper : c.toUpper = w.toUpper := by
      rw [← Char.toNat_inj, toNat_toUpper, toNat_toUpper, if_pos hw']
      split
      · omega
      · omega
    have hcons : uppercase (c :: cs) = upper c ++ uppercase cs := List.flatMap_cons
    rw [hcons, upper_ascii (by omega), hupper, ih hws, List.map_cons, List.singleton_append]

end Text

namespace Verb

instance (w : Char) : Decidable (Text.IsVerbLetter w) :=
  inferInstanceAs (Decidable ((97 ≤ w.toNat ∧ w.toNat ≤ 122) ∧ w ≠ 'i' ∧ w ≠ 'k'))

theorem isVerbLetter_of_mem_key (v : Verb) : ∀ w ∈ v.key.toList, Text.IsVerbLetter w := by
  have h : v.key.toList.all (fun w => decide (Text.IsVerbLetter w)) = true := by
    cases v <;> decide
  exact fun w hw => of_decide_eq_true (List.all_eq_true.1 h w hw)

theorem isCaseVariant_iff {s : String} {v : Verb} :
    Text.IsCaseVariant s v.key ↔ s.toList.map Char.toLower = v.key.toList :=
  (Text.map_toLower_eq_iff fun w hw => (isVerbLetter_of_mem_key v w hw).1).symm

/-- The texts that spell a verb are those that differ from its key in case only. -/
theorem ofAnyCase?_eq_some_iff {s : String} {v : Verb} :
    ofAnyCase? s = some v ↔ Text.IsCaseVariant s v.key := by
  have hkey : ofAnyCase? s = some v ↔ String.ofList (Text.lowercase s.toList) = v.key :=
    ⟨ofKey?_eq_some, fun h => by rw [ofAnyCase?, h, ofKey?_key]⟩
  rw [hkey, Text.IsCaseVariant, ← Text.lowercase_eq_iff (isVerbLetter_of_mem_key v),
    ← String.toList_inj, String.toList_ofList]

/-- In upper case, every spelling of a verb is its method. -/
theorem uppercase_of_isCaseVariant {s : String} {v : Verb} (h : Text.IsCaseVariant s v.key) :
    String.ofList (Text.uppercase s.toList) = v.method := by
  rw [Text.uppercase_of_forall₂ (fun w hw => (isVerbLetter_of_mem_key v w hw).1) h]
  cases v <;> rfl

end Verb

end ApiReport
