import ApiReport.Number.Binary64

/-!
# Shortest decimal text of a number

A finite number is written with the fewest decimal digits that read back as the same number; of
several such digit strings the nearest to the number is taken. From 10⁻⁶ up to below 10²¹ the digits
stand in positional notation, elsewhere in scientific notation.

Key definitions: `Number.digits`, `Number.text`.
-/
namespace ApiReport.Number

/-- A positive number as an exact fraction. -/
def fraction (m : Nat) (e : Int) : Nat × Nat :=
  if 0 ≤ e then (m * twoTo e.toNat, 1) else (m, twoTo (-e).toNat)

/-- The power `k` of ten with `10 ^ (k - 1) ≤ num / den < 10 ^ k`, searched upwards from a bound
below it. -/
def decimalPoint (num den : Nat) : Int :=
  let below (k : Int) : Bool :=
    if 0 ≤ k then num < den * tenTo k.toNat else num * tenTo (-k).toNat < den
  let low : Int := ((Nat.log2 num : Int) - (Nat.log2 den : Int) - 1) * 30103 / 100000 - 1
  (((List.range 6).map fun (i : Nat) => low + (i : Int)).find? below).getD (low + 6)

/-- Whether `candidate * 10 ^ place` reads back as `m * 2 ^ e`: it lies between the midpoints to the
neighbouring numbers, which themselves go to an even significand. Everything is compared in
quarters of the unit `2 ^ e`. -/
def readsBack (m : Nat) (e : Int) (candidate : Nat) (place : Int) : Bool :=
  let low := if m = twoTo 52 && (-1074) < e then 4 * m - 1 else 4 * m - 2
  let high := 4 * m + 2
  let (cn, cd) :=
    if 0 ≤ place then (candidate * tenTo place.toNat, 1) else (candidate, tenTo (-place).toNat)
  let (un, ud) := if 0 ≤ e then (twoTo e.toNat, 1) else (1, twoTo (-e).toNat)
  let left := 4 * cn * ud
  let unit := cd * un
  if m % 2 = 0 then low * unit ≤ left && left ≤ high * unit
  else low * unit < left && left < high * unit

/-- The nearest neighbour on the grid of `10 ^ place` that reads back, if one of the two does. -/
def onGrid (m : Nat) (e : Int) (place : Int) : Option Nat :=
  let (num, den) := fraction m e
  let (num, den) :=
    if 0 ≤ place then (num, den * tenTo place.toNat) else (num * tenTo (-place).toNat, den)
  let floor := num / den
  let nearer := if 2 * (num % den) ≤ den then [floor, floor + 1] else [floor + 1, floor]
  nearer.find? fun c => 0 < c && readsBack m e c place

/-- The shortest digits of `m * 2 ^ e` and the place of their last one. -/
def shortest (m : Nat) (e : Int) : Nat × Int :=
  let (num, den) := fraction m e
  let point := decimalPoint num den
  let grids := (List.range 17).map fun (i : Nat) => point - 1 - (i : Int)
  (grids.findSome? fun place => (onGrid m e place).map fun c => (c, place)).getD (0, 0)

/-- Digits without trailing zeros, and the position of the decimal point counted from their left. -/
def digits (m : Nat) (e : Int) : List Char × Int :=
  let (c, place) := shortest m e
  let all := (Nat.toDigits 10 c)
  let kept := (all.reverse.dropWhile (· == '0')).reverse
  (kept, (all.length : Int) + place)

/-- Digits in scientific notation, the decimal point being at position `point`; the exponent has a
sign. -/
def scientific (ds : List Char) (point : Int) : List Char :=
  let n := point - 1
  let mantissa := match ds with
    | [] => []
    | [d] => [d]
    | d :: rest => d :: '.' :: rest
  mantissa ++ 'e' :: (if n < 0 then '-' else '+') :: Nat.toDigits 10 n.natAbs

/-- Digits with the decimal point at position `point`: positional from 10⁻⁶ up to below 10²¹, else
scientific. -/
def layout (ds : List Char) (point : Int) : List Char :=
  let k : Int := ds.length
  if k ≤ point && point ≤ 21 then ds ++ List.replicate (point - k).toNat '0'
  else if 0 < point && point ≤ 21 then ds.take point.toNat ++ '.' :: ds.drop point.toNat
  else if (-6) < point && point ≤ 0 then '0' :: '.' :: (List.replicate (-point).toNat '0' ++ ds)
  else scientific ds point

/-- The text of a number; both zeros are written `0`. -/
def text : Number → String
  | .nan => "NaN"
  | .infinity negative => if negative then "-Infinity" else "Infinity"
  | .finite negative m e =>
    if m = 0 then "0"
    else
      let (ds, point) := digits m e
      String.ofList ((if negative then ['-'] else []) ++ layout ds point)

end ApiReport.Number
