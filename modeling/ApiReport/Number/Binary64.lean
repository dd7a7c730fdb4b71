/-!
# Numbers of a document

A number read from a document is the 64-bit binary floating-point number nearest to what was
written, a tie going to the even significand. A finite number is kept as its sign, its integral
significand and its power of two, so that comparing and printing need whole numbers only.

Key definitions: `Number`, `Number.nearest`, `Number.ofDecimal`, `Number.isTruthy`, `Number.same`.
-/
namespace ApiReport

/-- A 64-bit binary floating-point number. A finite one is `± significand * 2 ^ exponent`, where
the significand is below 2⁵³, the exponent is at least -1074, and one of the two is the least
possible (2⁵² or -1074). -/
inductive Number where
  | nan
  | infinity (negative : Bool)
  | finite (negative : Bool) (significand : Nat) (exponent : Int)
  deriving DecidableEq, Repr, Inhabited

namespace Number

def twoTo (n : Nat) : Nat := Nat.pow 2 n

def tenTo (n : Nat) : Nat := Nat.pow 10 n

/-- The zero of either sign. -/
def zero (negative : Bool) : Number := .finite negative 0 (-1074)

/-- The quotient of whole numbers rounded to the nearest whole number, a tie to the even one. -/
def roundDiv (num den : Nat) : Nat :=
  let q := num / den
  let r := num % den
  if 2 * r < den then q
  else if den < 2 * r then q + 1
  else q + q % 2

/-- `num / den` in units of `2 ^ exponent`, rounded. -/
def scaled (num den : Nat) (exponent : Int) : Nat :=
  if 0 ≤ exponent then roundDiv num (den * twoTo exponent.toNat)
  else roundDiv (num * twoTo (-exponent).toNat) den

/-- The least exponent that leaves `num / den` below 2⁵³ units, but never under -1074. -/
def unitExponent (num den : Nat) : Int :=
  let guess : Int := (Nat.log2 num : Int) - (Nat.log2 den : Int) - 53
  let fits (e : Int) : Bool :=
    if 0 ≤ e then num < den * twoTo e.toNat * twoTo 53 else num * twoTo (-e).toNat < den * twoTo 53
  let e := if fits guess then guess else guess + 1
  max e (-1074)

/-- The number nearest to `num / den`. -/
def nearest (negative : Bool) (num den : Nat) : Number :=
  if num = 0 then zero negative
  else
    let e := unitExponent num den
    let m := scaled num den e
    let (m, e) := if m = twoTo 53 then (twoTo 52, e + 1) else (m, e)
    if 971 < e then .infinity negative else .finite negative m e

/-- The number nearest to `digits * 10 ^ exponent`. Beyond 400 places either way the answer is
known without computing the power. -/
def ofDecimal (negative : Bool) (digits : Nat) (exponent : Int) : Number :=
  if digits = 0 then zero negative
  else
    let magnitude : Int := (Nat.log2 digits : Int) / 4 + exponent
    if 400 < magnitude then .infinity negative
    else if (Nat.log2 digits : Int) + exponent < -800 then zero negative
    else if 0 ≤ exponent then nearest negative (digits * tenTo exponent.toNat) 1
    else nearest negative digits (tenTo (-exponent).toNat)

/-- The number nearest to a whole number. -/
def ofNat (n : Nat) : Number := nearest false n 1

/-- Zero and NaN count as nothing, every other number as something. -/
def isTruthy : Number → Bool
  | .nan => false
  | .infinity _ => true
  | .finite _ m _ => m != 0

/-- Numeric equality: the two zeros are equal, NaN equals nothing. -/
def same : Number → Number → Bool
  | .nan, _ | _, .nan => false
  | .finite s m e, .finite s' m' e' => (m == 0 && m' == 0) || (s == s' && m == m' && e == e')
  | a, b => a == b

end Number

end ApiReport
