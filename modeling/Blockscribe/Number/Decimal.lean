/-
Doubles in decimal.

* `Decimal`: a natural times a power of ten, the value of a run of digits with a point and an
  exponent.
* `Double.ofDecimal`: the double nearest to a decimal.
* `Double.shortest`: the fewest digits that read back as the double, and of those the nearest ones.
* `Double.text`: the digits written out, positionally where the point is not far off, else with an
  exponent of two digits or more.
-/
import Blockscribe.Number.Double

namespace Blockscribe

/-- The number `digits * 10 ^ exponent`. -/
structure Decimal where
  digits : Nat
  exponent : Int
  deriving DecidableEq, Repr, Inhabited

namespace Decimal

/-- How many digits a natural has; zero has one. -/
def length (n : Nat) : Nat := (Nat.toDigits 10 n).length

/-- A decimal as numerator and denominator. -/
def ratio (d : Decimal) : Nat × Nat :=
  if 0 ≤ d.exponent then (d.digits * Nat.pow 10 d.exponent.toNat, 1)
  else (d.digits, Nat.pow 10 (-d.exponent).toNat)

/-- The same number without zeros at the end of its digits; `fuel` bounds how many are taken off. -/
def shorten : Nat → Decimal → Decimal
  | 0, d => d
  | fuel + 1, d =>
    if d.digits ≠ 0 ∧ d.digits % 10 = 0 then shorten fuel ⟨d.digits / 10, d.exponent + 1⟩
    else d

end Decimal

namespace Double

/-- The double nearest to a decimal. Decimals of 310 places and more before the point are infinite,
those with more than 330 zeros behind it are zero, so that no great power has to be computed. -/
def ofDecimal (negative : Bool) (d : Decimal) : Double :=
  if d.digits = 0 then zero negative
  else
    let places := (Decimal.length d.digits : Int) + d.exponent
    if places > 310 then infinite negative
    else if places < -330 then zero negative
    else round negative d.ratio.1 d.ratio.2

/-- How many places a positive quotient has before the point; a quotient below one tenth has
minus as many as it has zeros behind the point. -/
def places (num den : Nat) : Int := (Decimal.length (num * Nat.pow 10 400 / den) : Int) - 400

/-- The quotient `num / den` in units of `10 ^ exponent`, as numerator and denominator. -/
def inTens (num den : Nat) (exponent : Int) : Nat × Nat :=
  if 0 ≤ exponent then (num, den * Nat.pow 10 exponent.toNat)
  else (num * Nat.pow 10 (-exponent).toNat, den)

/-- Of the two multiples of `10 ^ exponent` next to `num / den`, the nearer one that passes the
test; a tie goes to the even one. -/
def nearestPassing (passes : Decimal → Bool) (num den : Nat) (exponent : Int) : Option Decimal :=
  let (n, d) := inTens num den exponent
  let below : Decimal := ⟨n / d, exponent⟩
  let above : Decimal := ⟨n / d + 1, exponent⟩
  let twice := 2 * (n % d)
  if passes below && (twice < d || (twice == d && n / d % 2 == 0) || !passes above) then
    some below
  else if passes above then some above
  else none

/-- The exact decimal expansion of `mantissa * 2 ^ exponent`. -/
def exactDecimal (mantissa : Nat) (exponent : Int) : Decimal :=
  if 0 ≤ exponent then ⟨mantissa * Nat.pow 2 exponent.toNat, 0⟩
  else ⟨mantissa * Nat.pow 5 (-exponent).toNat, exponent⟩

/-- The decimal with the fewest digits, at most seventeen, that reads back as
`mantissa * 2 ^ exponent`, and of those the nearest; without one, the exact expansion. -/
def shortest (mantissa : Nat) (exponent : Int) : Decimal :=
  let (num, den) := ratio mantissa exponent
  let top := places num den
  let passes := fun d => ofDecimal false d == finite false mantissa exponent
  let found := (List.range 17).findSome? fun (k : Nat) =>
    nearestPassing passes num den (top - (k + 1))
  Decimal.shorten 17 (found.getD (exactDecimal mantissa exponent))

/-- The decimal digits of a natural. -/
def digitsOf (n : Nat) : List Char := Nat.toDigits 10 n

/-- An exponent with its sign and at least two digits. -/
def exponentText (e : Int) : List Char :=
  let digits := digitsOf e.natAbs
  (if e < 0 then '-' else '+') ::
    (if digits.length < 2 then '0' :: digits else digits)

/-- The digits of a decimal with a point: positional if the point stands behind at most sixteen
places or before at most three zeros, else one digit before the point and an exponent. -/
def layOut (d : Decimal) : List Char :=
  let digits := digitsOf d.digits
  let point := (digits.length : Int) + d.exponent
  if point > 16 ∨ point ≤ -4 then
    match digits with
    | [] => []
    | [only] => only :: 'e' :: exponentText (point - 1)
    | first :: more => first :: '.' :: more ++ 'e' :: exponentText (point - 1)
  else if point ≤ 0 then
    '0' :: '.' :: List.replicate (-point).toNat '0' ++ digits
  else if d.exponent ≥ 0 then
    digits ++ List.replicate d.exponent.toNat '0' ++ ['.', '0']
  else digits.take point.toNat ++ '.' :: digits.drop point.toNat

/-- A number as text: a finite one by its shortest digits. -/
def text : Double → String
  | nan => "nan"
  | infinite negative => if negative then "-inf" else "inf"
  | finite negative m e =>
    let body := if m = 0 then "0.0" else String.ofList (layOut (shortest m e))
    if negative then "-" ++ body else body

/-- A number as text, without a point if there is nothing behind it. -/
def plainText (x : Double) : String :=
  match x.truncate? with
  | some i => if x.isWhole then toString i else x.text
  | none => x.text

end Double

end Blockscribe
