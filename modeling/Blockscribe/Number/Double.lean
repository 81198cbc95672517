/-
Double precision numbers, exactly.

* `Double`: not-a-number, the infinities, and signed multiples of a power of two.
* `Double.round`: the number nearest to a quotient of naturals, ties to the even mantissa, infinite
  beyond the largest finite number.
* `Double.ratio`, `Double.truncate?`, `Double.isWhole`: the exact value as a quotient, its part
  before the point, and whether there is nothing behind the point.
* `halfEven_mul_le`, `le_halfEven_mul`: rounding a quotient is off by half a unit at most.
-/
namespace Blockscribe

/-- A double precision number. A finite one is `mantissa * 2 ^ exponent` with its sign; the sign of
zero counts. -/
inductive Double
  | nan
  | infinite (negative : Bool)
  | finite (negative : Bool) (mantissa : Nat) (exponent : Int)
  deriving DecidableEq, Repr, Inhabited

namespace Double

/-- The least exponent; numbers that have it may have a mantissa of fewer than 53 bits. -/
def minExponent : Int := -1074

/-- The greatest exponent of a finite number. -/
def maxExponent : Int := 971

/-- The quotient of two naturals to the nearest natural, ties to the even one. -/
def halfEven (num den : Nat) : Nat :=
  if den < 2 * (num % den) ∨ (2 * (num % den) = den ∧ num / den % 2 = 1) then num / den + 1
  else num / den

/-- Rounding to the nearest natural exceeds the quotient by half a unit at most. -/
theorem halfEven_mul_le (num den : Nat) :
    2 * (halfEven num den * den) ≤ 2 * num + den := by
  have hsplit : den * (num / den) + num % den = num := Nat.div_add_mod num den
  have hcomm : num / den * den = den * (num / den) := Nat.mul_comm _ _
  unfold halfEven
  split
  · have : (num / den + 1) * den = num / den * den + den := Nat.succ_mul _ _
    omega
  · omega

/-- Rounding to the nearest natural falls short of the quotient by half a unit at most. -/
theorem le_halfEven_mul (num den : Nat) (hden : 0 < den) :
    2 * num ≤ 2 * (halfEven num den * den) + den := by
  have hsplit : den * (num / den) + num % den = num := Nat.div_add_mod num den
  have hcomm : num / den * den = den * (num / den) := Nat.mul_comm _ _
  have hlt : num % den < den := Nat.mod_lt _ hden
  unfold halfEven
  split
  · have : (num / den + 1) * den = num / den * den + den := Nat.succ_mul _ _
    omega
  · omega

/-- `num / den` in units of `2 ^ exponent`, as numerator and denominator. -/
def inUnits (num den : Nat) (exponent : Int) : Nat × Nat :=
  if 0 ≤ exponent then (num, den * Nat.pow 2 exponent.toNat)
  else (num * Nat.pow 2 (-exponent).toNat, den)

/-- The exponent at which `num / den` has a mantissa of 53 bits, or the least exponent. -/
def exponentFor (num den : Nat) : Int :=
  let low := max ((num.log2 : Int) - den.log2 - 53) minExponent
  let (n, d) := inUnits num den low
  if n / d < Nat.pow 2 53 then low else low + 1

/-- A finite number with the given mantissa of at most 53 bits, carried into the exponent when
rounding filled it up, or an infinity when the exponent is too great. -/
def carry (negative : Bool) (mantissa : Nat) (exponent : Int) : Double :=
  let (m, e) :=
    if mantissa = Nat.pow 2 53 then (Nat.pow 2 52, exponent + 1) else (mantissa, exponent)
  if e > maxExponent then infinite negative else finite negative m e

/-- The zero of the given sign. -/
def zero (negative : Bool) : Double := finite negative 0 minExponent

/-- The number nearest to `num / den`, ties to the even mantissa. -/
def round (negative : Bool) (num den : Nat) : Double :=
  if num = 0 then zero negative
  else
    let exponent := exponentFor num den
    let (n, d) := inUnits num den exponent
    carry negative (halfEven n d) exponent

/-- The exact absolute value of `mantissa * 2 ^ exponent`, as numerator and denominator. -/
def ratio (mantissa : Nat) (exponent : Int) : Nat × Nat :=
  if 0 ≤ exponent then (mantissa * Nat.pow 2 exponent.toNat, 1)
  else (mantissa, Nat.pow 2 (-exponent).toNat)

/-- A natural with a sign. -/
def signed (negative : Bool) (n : Nat) : Int := if negative then -(n : Int) else n

/-- The part before the point, if the number is finite. -/
def truncate? : Double → Option Int
  | finite negative m e =>
    let (n, d) := ratio m e
    some (signed negative (n / d))
  | _ => none

/-- Whether the number is finite with nothing behind the point. -/
def isWhole : Double → Bool
  | finite _ m e =>
    let (n, d) := ratio m e
    n % d == 0
  | _ => false

/-- Whether the number is below zero; neither zero is, nor is not-a-number. -/
def isNegative : Double → Bool
  | nan => false
  | infinite negative => negative
  | finite negative m _ => negative && m != 0

/-- Whether the number is zero. -/
def isZero : Double → Bool
  | finite _ m _ => m == 0
  | _ => false

/-- The number nearest to an integer. -/
def ofInt (i : Int) : Double := round (i < 0) i.natAbs 1

/-- The number nearest to the difference of a number and an integer. -/
def minus (x : Double) (i : Int) : Double :=
  match x with
  | finite negative m e =>
    let (n, d) := ratio m e
    let difference := signed negative n - i * d
    if difference = 0 then zero (negative && m == 0 && i == 0)
    else round (difference < 0) difference.natAbs d
  | other => other

/-- Whether an integer is at most the number; not-a-number is never at least anything. -/
def atLeast (x : Double) (i : Int) : Bool :=
  match x with
  | nan => false
  | infinite negative => !negative
  | finite negative m e =>
    let (n, d) := ratio m e
    i * d ≤ signed negative n

/-- Whether an integer is at least the number; not-a-number is never at most anything. -/
def atMost (x : Double) (i : Int) : Bool :=
  match x with
  | nan => false
  | infinite negative => negative
  | finite negative m e =>
    let (n, d) := ratio m e
    signed negative n ≤ i * d

end Double

end Blockscribe
