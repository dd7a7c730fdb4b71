import ApiReport.Text.Upper

/-!
# Comparing without regard to case

Two characters differ in case only if they are folded to the same character. A character is folded
to its upper case, if both are a single 16-bit unit, and unless this would take a character from
outside of ASCII into it. So U+017F (long s), with the upper case `S`, and U+00DF (sharp s), with
the upper case `SS`, are folded to themselves.

Key definitions: `fold`.
-/
namespace ApiReport.Text

/-- The character that stands for a character in either case. -/
def fold (c : Char) : Char :=
  match upper c with
  | [u] =>
    if c.toNat < 0x10000 ∧ u.toNat < 0x10000 ∧ (c.toNat < 128 ∨ 128 ≤ u.toNat) then u else c
  | _ => c

end ApiReport.Text
