import ApiReport.Proofs.Text.Utf8
import Mathlib.Data.List.Forall2

/-!
# Which bytes are a text

Bytes are well formed if they are the bytes of characters, one after the other: of each the first
byte lies in a range of its row of the table, and the others in the ranges that follow. Reading
finds nothing to replace in exactly these bytes. They are also exactly the bytes of texts, so that
writing what is read of them gives them back. In all other bytes something is replaced, and the
text that is read holds U+FFFD.

The ranges are compared with both sides: with what a first byte lets follow (`begins_first`), and
with what the bytes of a character are (`exists_encodeChar`). An overlong form, a surrogate and a
character past the last one have no row.

Key definitions: `Utf8.rows`, `Utf8.IsCharacter`, `Utf8.WellFormed`, `Utf8.Partial.ranges`,
`Utf8.Begins`.
Key theorems: `Utf8.isText_iff`, `Utf8.wellFormed_iff`, `Utf8.encode_decode`,
`Utf8.mem_decode_of_not_isText`.
-/
namespace ApiReport.Text.Utf8

/-- The well-formed bytes of one character, each by the range in which it lies. -/
def rows : List (List (Nat × Nat)) :=
  [[(0x00, 0x7F)],
    [(0xC2, 0xDF), (0x80, 0xBF)],
    [(0xE0, 0xE0), (0xA0, 0xBF), (0x80, 0xBF)],
    [(0xE1, 0xEC), (0x80, 0xBF), (0x80, 0xBF)],
    [(0xED, 0xED), (0x80, 0x9F), (0x80, 0xBF)],
    [(0xEE, 0xEF), (0x80, 0xBF), (0x80, 0xBF)],
    [(0xF0, 0xF0), (0x90, 0xBF), (0x80, 0xBF), (0x80, 0xBF)],
    [(0xF1, 0xF3), (0x80, 0xBF), (0x80, 0xBF), (0x80, 0xBF)],
    [(0xF4, 0xF4), (0x80, 0x8F), (0x80, 0xBF), (0x80, 0xBF)]]

/-- Bytes that lie, one after the other, in the given ranges. -/
def Fits (ranges : List (Nat × Nat)) (bytes : List UInt8) : Prop :=
  ranges.Forall₂ (fun r b => r.1 ≤ b.toNat ∧ b.toNat ≤ r.2) bytes

/-- The well-formed bytes of one character. -/
def IsCharacter (bytes : List UInt8) : Prop := ∃ row ∈ rows, Fits row bytes

/-- The well-formed bytes of characters one after the other. -/
inductive WellFormed : List UInt8 → Prop
  | nil : WellFormed []
  | append {bytes rest : List UInt8} : IsCharacter bytes → WellFormed rest →
      WellFormed (bytes ++ rest)

theorem fits_cons {r : Nat × Nat} {ranges : List (Nat × Nat)} {bytes : List UInt8} :
    Fits (r :: ranges) bytes ↔
      ∃ b bs, (r.1 ≤ b.toNat ∧ b.toNat ≤ r.2) ∧ Fits ranges bs ∧ bytes = b :: bs :=
  List.forall₂_cons_left_iff

theorem fits_nil {bytes : List UInt8} : Fits [] bytes ↔ bytes = [] := List.forall₂_nil_left_iff

/-! ### Where nothing is replaced -/

/-- The ranges of the bytes that are missing of a character. -/
def Partial.ranges (p : Partial) : List (Nat × Nat) :=
  (p.low, p.high) :: List.replicate (p.missing - 1) (0x80, 0xBF)

theorem Partial.ranges_mk (missing low high bits : Nat) :
    (Partial.mk missing low high bits).ranges =
      (low, high) :: List.replicate (missing - 1) (0x80, 0xBF) := rfl

theorem Partial.ranges_of_lt {p : Partial} (h : 1 < p.missing) (bits : Nat) :
    p.ranges = (p.low, p.high) :: (Partial.mk (p.missing - 1) 0x80 0xBF bits).ranges := by
  obtain ⟨n, hn⟩ : ∃ n, p.missing - 1 = n + 1 := ⟨p.missing - 2, by omega⟩
  rw [ranges, ranges_mk, hn, List.replicate_succ]
  rfl

/-- What a first byte can be: a character, or none starts with it, or it starts a row and the ranges
of what is missing are the rest of that row. -/
inductive Begins (b : Nat) : Step → Prop
  | single : b ≤ 0x7F → Begins b ([some (Char.ofNat b)], none)
  | invalid : Begins b ([none], none)
  | row {p : Partial} (range : Nat × Nat) : range :: p.ranges ∈ rows →
      range.1 ≤ b ∧ b ≤ range.2 → Begins b ([], some p)

namespace Begins

variable {b : Nat}

theorem ite {c : Prop} [Decidable c] {x y : Step} (hx : c → Begins b x) (hy : ¬ c → Begins b y) :
    Begins b (if c then x else y) := by
  by_cases hc : c
  · rw [if_pos hc]
    exact hx hc
  · rw [if_neg hc]
    exact hy hc

theorem mk_row (range : Nat × Nat) {missing low high bits : Nat}
    (hrow : range :: (low, high) :: List.replicate (missing - 1) (0x80, 0xBF) ∈ rows)
    (hb : range.1 ≤ b ∧ b ≤ range.2) : Begins b ([], some ⟨missing, low, high, bits⟩) := by
  rw [← Partial.ranges_mk missing low high bits] at hrow
  exact .row range hrow hb

end Begins

theorem begins_first {b : Nat} (hb : b < 256) : Begins b (first b) := by
  unfold first
  refine .ite (fun _ => .single (by omega)) fun h1 => ?_
  refine .ite (fun _ => .invalid) fun h2 => ?_
  refine .ite (fun h => .mk_row (0xC2, 0xDF) (by decide) (by omega)) fun h3 => ?_
  refine .ite (fun h => .mk_row (0xE0, 0xE0) (by decide) (by omega)) fun h4 => ?_
  refine .ite (fun h => .mk_row (0xED, 0xED) (by decide) (by omega)) fun h5 => ?_
  refine .ite (fun h => ?_) fun h6 => ?_
  · by_cases hd : b < 0xED
    · exact .mk_row (0xE1, 0xEC) (by decide) (by omega)
    · exact .mk_row (0xEE, 0xEF) (by decide) (by omega)
  refine .ite (fun h => .mk_row (0xF0, 0xF0) (by decide) (by omega)) fun h7 => ?_
  refine .ite (fun h => .mk_row (0xF1, 0xF3) (by decide) (by omega)) fun h8 => ?_
  exact .ite (fun h => .mk_row (0xF4, 0xF4) (by decide) (by omega)) fun _ => .invalid

/-- Where nothing is replaced, a character that has been started is brought to its end. -/
theorem exists_fits_of_all : ∀ {bytes : List UInt8} {p : Partial},
    (characters (some p) bytes).all Option.isSome = true →
    ∃ more rest, bytes = more ++ rest ∧ Fits p.ranges more ∧ isText rest = true
  | [], p, h => by cases h
  | b :: bytes, p, h => by
    rw [characters_cons, step] at h
    by_cases hin : p.low ≤ b.toNat ∧ b.toNat ≤ p.high
    · rw [if_pos (by simpa using hin)] at h
      by_cases hlast : p.missing ≤ 1
      · rw [if_pos hlast] at h
        have hranges : p.ranges = [(p.low, p.high)] := by
          rw [Partial.ranges, Nat.sub_eq_zero_of_le hlast]
          rfl
        refine ⟨[b], bytes, rfl, ?_, ?_⟩
        · rw [hranges]
          exact .cons hin .nil
        · rw [List.all_append, Bool.and_eq_true] at h
          exact h.2
      · rw [if_neg hlast] at h
        obtain ⟨more, rest, rfl, hmore, hrest⟩ := exists_fits_of_all h
        refine ⟨b :: more, rest, rfl, ?_, hrest⟩
        rw [Partial.ranges_of_lt (Nat.lt_of_not_le hlast)]
        exact .cons hin hmore
    · rw [if_neg (by simpa using hin)] at h
      cases h

/-- Where nothing is replaced, a character stands at the start. -/
theorem exists_character_of_isText {b : UInt8} {bytes : List UInt8}
    (h : isText (b :: bytes) = true) :
    ∃ more rest, bytes = more ++ rest ∧ IsCharacter (b :: more) ∧ isText rest = true := by
  have hbegins := begins_first b.toNat_lt
  rw [isText, characters_cons, step] at h
  generalize first b.toNat = x at hbegins h
  cases hbegins with
  | single hb =>
    rw [List.all_append, Bool.and_eq_true] at h
    exact ⟨[], bytes, rfl, ⟨_, List.mem_cons_self, .cons ⟨Nat.zero_le _, hb⟩ .nil⟩, h.2⟩
  | invalid => cases h
  | row range hrow hb =>
    obtain ⟨more, rest, rfl, hmore, hrest⟩ := exists_fits_of_all h
    exact ⟨more, rest, rfl, ⟨_, hrow, .cons hb hmore⟩, hrest⟩

theorem wellFormed_of_isText : ∀ {bytes : List UInt8}, isText bytes = true → WellFormed bytes
  | [], _ => .nil
  | b :: bytes, h => by
    obtain ⟨more, rest, hbytes, hcharacter, hrest⟩ := exists_character_of_isText h
    have hshorter : rest.length < bytes.length + 1 := by
      rw [hbytes, List.length_append]
      omega
    rw [hbytes]
    exact .append hcharacter (wellFormed_of_isText hrest)
  termination_by bytes => bytes.length
  decreasing_by exact hshorter

/-! ### The bytes of characters -/

theorem exists_char {n : Nat} (h : n < 0xD800 ∨ 0xDFFF < n ∧ n < 0x110000) :
    ∃ c : Char, c.val.toNat = n :=
  ⟨⟨UInt32.ofNatLT n (by simp [UInt32.size]; omega), h⟩, rfl⟩

theorem ofNat_eq {n : Nat} {b : UInt8} (h : n = b.toNat) : UInt8.ofNat n = b := by
  rw [h, UInt8.ofNat_toNat]

section Rows

variable {r r' : Nat × Nat} {bytes : List UInt8}

theorem exists_encodeChar_one (h : Fits [r] bytes) (hr : r.2 ≤ 0x7F) :
    ∃ x, String.utf8EncodeChar x = bytes := by
  obtain ⟨a, _, ha, h1, rfl⟩ := fits_cons.1 h
  obtain rfl := fits_nil.1 h1
  obtain ⟨x, hx⟩ := exists_char (n := a.toNat) (by omega)
  refine ⟨x, ?_⟩
  unfold String.utf8EncodeChar
  dsimp only
  rw [hx, if_pos (by omega), UInt8.ofNat_toNat]

theorem exists_encodeChar_two (h : Fits [r, (0x80, 0xBF)] bytes) (hr : 0xC2 ≤ r.1 ∧ r.2 ≤ 0xDF) :
    ∃ x, String.utf8EncodeChar x = bytes := by
  obtain ⟨a, _, ha, h1, rfl⟩ := fits_cons.1 h
  obtain ⟨b, _, hb, h2, rfl⟩ := fits_cons.1 h1
  obtain rfl := fits_nil.1 h2
  obtain ⟨x, hx⟩ := exists_char (n := (a.toNat - 0xC0) * 64 + (b.toNat - 0x80)) (by omega)
  refine ⟨x, ?_⟩
  unfold String.utf8EncodeChar
  dsimp only
  rw [hx, if_neg (by omega), if_pos (by omega), ofNat_eq (b := a) (by omega),
    ofNat_eq (b := b) (by omega)]

/-- The second byte keeps a character of three bytes from being an overlong form or a surrogate. -/
theorem exists_encodeChar_three (h : Fits [r, r', (0x80, 0xBF)] bytes)
    (hr : 0xE0 ≤ r.1 ∧ r.2 ≤ 0xEF) (hr' : 0x80 ≤ r'.1 ∧ r'.2 ≤ 0xBF)
    (hlow : r.1 ≤ 0xE0 → 0xA0 ≤ r'.1) (hhigh : r.1 ≤ 0xED → 0xED ≤ r.2 → r'.2 ≤ 0x9F) :
    ∃ x, String.utf8EncodeChar x = bytes := by
  obtain ⟨a, _, ha, h1, rfl⟩ := fits_cons.1 h
  obtain ⟨b, _, hb, h2, rfl⟩ := fits_cons.1 h1
  obtain ⟨c, _, hc, h3, rfl⟩ := fits_cons.1 h2
  obtain rfl := fits_nil.1 h3
  obtain ⟨x, hx⟩ := exists_char
    (n := (a.toNat - 0xE0) * 4096 + (b.toNat - 0x80) * 64 + (c.toNat - 0x80)) (by omega)
  refine ⟨x, ?_⟩
  unfold String.utf8EncodeChar
  dsimp only
  rw [hx, if_neg (by omega), if_neg (by omega), if_pos (by omega), ofNat_eq (b := a) (by omega),
    ofNat_eq (b := b) (by omega), ofNat_eq (b := c) (by omega)]

/-- The second byte keeps a character of four bytes from being an overlong form or past the last
one. -/
theorem exists_encodeChar_four (h : Fits [r, r', (0x80, 0xBF), (0x80, 0xBF)] bytes)
    (hr : 0xF0 ≤ r.1 ∧ r.2 ≤ 0xF4) (hr' : 0x80 ≤ r'.1 ∧ r'.2 ≤ 0xBF)
    (hlow : r.1 ≤ 0xF0 → 0x90 ≤ r'.1) (hhigh : 0xF4 ≤ r.2 → r'.2 ≤ 0x8F) :
    ∃ x, String.utf8EncodeChar x = bytes := by
  obtain ⟨a, _, ha, h1, rfl⟩ := fits_cons.1 h
  obtain ⟨b, _, hb, h2, rfl⟩ := fits_cons.1 h1
  obtain ⟨c, _, hc, h3, rfl⟩ := fits_cons.1 h2
  obtain ⟨d, _, hd, h4, rfl⟩ := fits_cons.1 h3
  obtain rfl := fits_nil.1 h4
  obtain ⟨x, hx⟩ := exists_char (n := (a.toNat - 0xF0) * 262144 + (b.toNat - 0x80) * 4096 +
    (c.toNat - 0x80) * 64 + (d.toNat - 0x80)) (by omega)
  refine ⟨x, ?_⟩
  unfold String.utf8EncodeChar
  dsimp only
  rw [hx, if_neg (by omega), if_neg (by omega), if_neg (by omega), ofNat_eq (b := a) (by omega),
    ofNat_eq (b := b) (by omega), ofNat_eq (b := c) (by omega), ofNat_eq (b := d) (by omega)]

/-- Bytes that fit a row are those of a character. -/
theorem exists_encodeChar (h : IsCharacter bytes) : ∃ x, String.utf8EncodeChar x = bytes := by
  obtain ⟨row, hrow, hbytes⟩ := h
  simp only [rows, List.mem_cons, List.not_mem_nil, or_false] at hrow
  rcases hrow with rfl | rfl | rfl | rfl | rfl | rfl | rfl | rfl | rfl
  · exact exists_encodeChar_one hbytes (by decide)
  · exact exists_encodeChar_two hbytes (by decide)
  · exact exists_encodeChar_three hbytes (by decide) (by decide) (by decide) (by decide)
  · exact exists_encodeChar_three hbytes (by decide) (by decide) (by decide) (by decide)
  · exact exists_encodeChar_three hbytes (by decide) (by decide) (by decide) (by decide)
  · exact exists_encodeChar_three hbytes (by decide) (by decide) (by decide) (by decide)
  · exact exists_encodeChar_four hbytes (by decide) (by decide) (by decide) (by decide)
  · exact exists_encodeChar_four hbytes (by decide) (by decide) (by decide) (by decide)
  · exact exists_encodeChar_four hbytes (by decide) (by decide) (by decide) (by decide)

end Rows

theorem exists_encode_of_wellFormed {bytes : List UInt8} (h : WellFormed bytes) :
    ∃ cs, bytes = encode cs := by
  induction h with
  | nil => exact ⟨[], rfl⟩
  | append hcharacter _ ih =>
    obtain ⟨c, rfl⟩ := exists_encodeChar hcharacter
    obtain ⟨cs, rfl⟩ := ih
    exact ⟨c :: cs, rfl⟩

/-! ### Texts -/

variable {bytes : List UInt8}

/-- The bytes of texts are the well-formed ones. -/
theorem wellFormed_iff : WellFormed bytes ↔ ∃ cs, bytes = encode cs := by
  constructor
  · exact exists_encode_of_wellFormed
  · rintro ⟨cs, rfl⟩
    exact wellFormed_of_isText (isText_encode cs)

/-- Nothing is replaced in well-formed bytes, and something in all others. -/
theorem isText_iff : isText bytes = true ↔ WellFormed bytes := by
  constructor
  · exact wellFormed_of_isText
  · intro h
    obtain ⟨cs, rfl⟩ := exists_encode_of_wellFormed h
    exact isText_encode cs

instance : DecidablePred WellFormed := fun _ => decidable_of_iff _ isText_iff

/-- The bytes that half of a surrogate pair would have. -/
example : ¬ WellFormed [0xED, 0xA0, 0x80] := by decide

/-- Well-formed bytes are those of the text that is read of them. -/
theorem encode_decode (h : WellFormed bytes) : encode (decode bytes) = bytes := by
  obtain ⟨cs, rfl⟩ := exists_encode_of_wellFormed h
  rw [decode_encode]

/-- What is replaced shows in the text. -/
theorem mem_decode_of_not_isText (h : isText bytes = false) : '\ufffd' ∈ decode bytes := by
  rw [isText, List.all_eq_false] at h
  obtain ⟨c, hc, hnone⟩ := h
  refine List.mem_map.2 ⟨c, hc, ?_⟩
  rw [Option.not_isSome_iff_eq_none.1 hnone]
  rfl

/-! ### Byte-order marks -/

/-- A text from which a byte-order mark has been dropped is the text, or the text behind a mark. -/
theorem eq_dropMark_or (cs : List Char) : cs = dropMark cs ∨ cs = '\ufeff' :: dropMark cs := by
  cases cs with
  | nil => exact .inl rfl
  | cons c cs =>
    by_cases hc : c = '\ufeff'
    · rw [dropMark, if_pos hc, hc]
      exact .inr rfl
    · rw [dropMark, if_neg hc]
      exact .inl rfl

/-- Nothing but a byte-order mark is dropped. -/
theorem mem_dropMark {c : Char} (hc : c ≠ '\ufeff') {cs : List Char} (h : c ∈ cs) :
    c ∈ dropMark cs := by
  rcases eq_dropMark_or cs with heq | heq
  · rwa [← heq]
  · rw [heq, List.mem_cons] at h
    exact h.resolve_left hc

end ApiReport.Text.Utf8
