import ApiReport.Text.Utf8
import Mathlib.Tactic.SplitIfs

/-!
# Text survives its bytes

The bytes of a character are read as that character, from the first byte, which fixes the range of
the second one, to the last. So the bytes of a text are a text throughout, and are read as that
text.

Key theorems: `Utf8.characters_encodeChar`, `Utf8.decode_encode`, `Utf8.isText_encode`.
-/
namespace ApiReport.Text.Utf8

/-! ### One byte after the other -/

theorem characters_cons (before : Option Partial) (b : UInt8) (bs : List UInt8) :
    characters before (b :: bs) =
      (step before b.toNat).1 ++ characters (step before b.toNat).2 bs := by
  cases before <;> rfl

theorem toNat_ofNat {n : Nat} (h : n < 256) : (UInt8.ofNat n).toNat = n := by
  simpa using h

theorem characters_first {b : Nat} {p : Partial} (hb : b < 256) (h : first b = ([], some p))
    (bs : List UInt8) : characters none (UInt8.ofNat b :: bs) = characters (some p) bs := by
  rw [characters_cons, toNat_ofNat hb, step, h, List.nil_append]

theorem characters_middle {p : Partial} {b : Nat} (hb : b < 256) (hl : p.low ≤ b) (hh : b ≤ p.high)
    (hm : 1 < p.missing) (bs : List UInt8) :
    characters (some p) (UInt8.ofNat b :: bs) =
      characters (some ⟨p.missing - 1, 0x80, 0xBF, p.bits * 64 + (b - 0x80)⟩) bs := by
  have hs : step (some p) b =
      ([], some ⟨p.missing - 1, 0x80, 0xBF, p.bits * 64 + (b - 0x80)⟩) := by
    simp [step, hl, hh, Nat.not_le.2 hm]
  rw [characters_cons, toNat_ofNat hb, hs, List.nil_append]

theorem characters_last {p : Partial} {b : Nat} (hb : b < 256) (hl : p.low ≤ b) (hh : b ≤ p.high)
    (hm : p.missing = 1) (bs : List UInt8) :
    characters (some p) (UInt8.ofNat b :: bs) =
      some (Char.ofNat (p.bits * 64 + (b - 0x80))) :: characters none bs := by
  have hs : step (some p) b = ([some (Char.ofNat (p.bits * 64 + (b - 0x80)))], none) := by
    simp [step, hl, hh, hm]
  rw [characters_cons, toNat_ofNat hb, hs, List.singleton_append]

/-! ### First bytes -/

theorem first_of_two {n : Nat} (h1 : 0x7F < n) (h2 : n ≤ 0x7FF) :
    first (n / 64 % 32 + 0xC0) = ([], some ⟨1, 0x80, 0xBF, n / 64⟩) := by
  have hn : n / 64 % 32 + 0xC0 - 0xC0 = n / 64 := by omega
  rw [first, if_neg (by omega), if_neg (by omega), if_pos (by omega), hn]

/-- The first of three bytes leaves out the overlong forms and the surrogates. -/
theorem first_of_three {n : Nat} (h1 : 0x7FF < n) (h2 : n ≤ 0xFFFF)
    (hs : n < 0xD800 ∨ 0xDFFF < n) :
    ∃ low high, first (n / 4096 % 16 + 0xE0) = ([], some ⟨2, low, high, n / 4096⟩) ∧
      low ≤ n / 64 % 64 + 0x80 ∧ n / 64 % 64 + 0x80 ≤ high := by
  have hn : n / 4096 % 16 + 0xE0 - 0xE0 = n / 4096 := by omega
  rw [first, if_neg (by omega), if_neg (by omega), if_neg (by omega), hn]
  by_cases h0 : n / 4096 % 16 + 0xE0 = 0xE0
  · have hz : n / 4096 = 0 := by omega
    rw [if_pos h0, hz]
    exact ⟨0xA0, 0xBF, rfl, by omega, by omega⟩
  · by_cases hd : n / 4096 % 16 + 0xE0 = 0xED
    · have hz : n / 4096 = 0xD := by omega
      rw [if_neg h0, if_pos hd, hz]
      exact ⟨0x80, 0x9F, rfl, by omega, by omega⟩
    · rw [if_neg h0, if_neg hd, if_pos (by omega)]
      exact ⟨0x80, 0xBF, rfl, by omega, by omega⟩

/-- The first of four bytes leaves out the overlong forms and what lies past the last character. -/
theorem first_of_four {n : Nat} (h1 : 0xFFFF < n) (h2 : n < 0x110000) :
    ∃ low high, first (n / 262144 % 8 + 0xF0) = ([], some ⟨3, low, high, n / 262144⟩) ∧
      low ≤ n / 4096 % 64 + 0x80 ∧ n / 4096 % 64 + 0x80 ≤ high := by
  have hn : n / 262144 % 8 + 0xF0 - 0xF0 = n / 262144 := by omega
  rw [first, if_neg (by omega), if_neg (by omega), if_neg (by omega), if_neg (by omega),
    if_neg (by omega), if_neg (by omega), hn]
  by_cases h0 : n / 262144 % 8 + 0xF0 = 0xF0
  · have hz : n / 262144 = 0 := by omega
    rw [if_pos h0, hz]
    exact ⟨0x90, 0xBF, rfl, by omega, by omega⟩
  · by_cases h4 : n / 262144 % 8 + 0xF0 < 0xF4
    · rw [if_neg h0, if_pos h4]
      exact ⟨0x80, 0xBF, rfl, by omega, by omega⟩
    · have hz : n / 262144 = 4 := by omega
      rw [if_neg h0, if_neg h4, if_pos (by omega), hz]
      exact ⟨0x80, 0x8F, rfl, by omega, by omega⟩

/-! ### Characters and texts -/

theorem val_range (c : Char) :
    c.val.toNat < 0xD800 ∨ (0xDFFF < c.val.toNat ∧ c.val.toNat < 0x110000) := c.valid

/-- The bytes of a character are read as that character. -/
theorem characters_encodeChar (c : Char) (bs : List UInt8) :
    characters none (String.utf8EncodeChar c ++ bs) = some c :: characters none bs := by
  have hr := val_range c
  have hc : ∀ m, m = c.val.toNat → Char.ofNat m = c := fun m hm => hm ▸ Char.ofNat_toNat c
  unfold String.utf8EncodeChar
  dsimp only
  generalize c.val.toNat = n at hr hc ⊢
  split_ifs with h1 h2 h3
  · have hf : first n = ([some (Char.ofNat n)], none) := by rw [first, if_pos (by omega)]
    rw [List.singleton_append, characters_cons, toNat_ofNat (by omega), step, hf, hc n rfl]
    rfl
  · rw [List.cons_append, List.cons_append, List.nil_append,
      characters_first (by omega) (first_of_two (by omega) h2),
      characters_last (by omega) (by simp) (by simp; omega) rfl, hc _ (by simp; omega)]
  · obtain ⟨low, high, hf, hl, hh⟩ := first_of_three (by omega) h3 (by omega)
    rw [List.cons_append, List.cons_append, List.cons_append, List.nil_append,
      characters_first (by omega) hf, characters_middle (by omega) hl hh (by simp),
      characters_last (by omega) (by simp) (by simp; omega) rfl, hc _ (by simp; omega)]
  · obtain ⟨low, high, hf, hl, hh⟩ := first_of_four (Nat.lt_of_not_le h3) (by omega)
    rw [List.cons_append, List.cons_append, List.cons_append, List.cons_append, List.nil_append,
      characters_first (by omega) hf, characters_middle (by omega) hl hh (by simp),
      characters_middle (by omega) (by simp) (by simp; omega) (by simp),
      characters_last (by omega) (by simp) (by simp; omega) rfl, hc _ (by simp; omega)]

theorem characters_encode : ∀ cs : List Char, characters none (encode cs) = cs.map some
  | [] => rfl
  | c :: cs => by
    rw [encode, List.flatMap_cons, characters_encodeChar, List.map_cons]
    exact congrArg (some c :: ·) (characters_encode cs)

/-- The bytes of a text are read as that text. -/
theorem decode_encode (cs : List Char) : decode (encode cs) = cs := by
  rw [decode, characters_encode, List.map_map]
  exact List.map_id cs

/-- The bytes of a text are a text throughout. -/
theorem isText_encode (cs : List Char) : isText (encode cs) = true := by
  rw [isText, characters_encode, List.all_map]
  simp

end ApiReport.Text.Utf8
