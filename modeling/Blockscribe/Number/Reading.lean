/-
Numbers read from text.

* `readDouble?`: a decimal with an optional point and exponent, or a word for an infinity or for
  not-a-number, with an optional sign and blanks around it. Digits may come from any script, and
  single underscores may stand between digits.
* `isNumeral`: the narrower form of a plain numeral: digits, with an optional minus sign and an
  optional fraction, and blanks around it.
-/
import Blockscribe.Text.Blank
import Blockscribe.Text.Digit
import Blockscribe.Number.Decimal

namespace Blockscribe.Number

open Blockscribe.Text

/-- Spells a character in ASCII: digits of every script by their value, blanks as spaces, and what
is left over as a question mark, which no number contains. -/
def plainChar (c : Char) : Char :=
  if c.toNat < 0x7f then c
  else if isBlank c then ' '
  else
    match decimalValue? c with
    | some d => Char.ofNat ('0'.toNat + d)
    | none => '?'

/-- Drops the ASCII blanks at both ends. -/
def trimAscii (cs : List Char) : List Char :=
  ((cs.dropWhile isAsciiBlank).reverse.dropWhile isAsciiBlank).reverse

/-- Takes out underscores, each of which must stand between two digits. -/
def joinDigits (afterDigit : Bool) : List Char → Option (List Char)
  | [] => some []
  | c :: rest =>
    if c = '_' then
      match rest with
      | [] => none
      | d :: more =>
        if afterDigit && d.isDigit then (joinDigits true more).map (d :: ·) else none
    else (joinDigits c.isDigit rest).map (c :: ·)

/-- The value of a run of ASCII digits. -/
def natOf (digits : List Char) : Nat :=
  digits.foldl (fun n c => 10 * n + (c.toNat - '0'.toNat)) 0

/-- A sign, and what follows it. -/
def splitSign : List Char → Bool × List Char
  | '-' :: rest => (true, rest)
  | '+' :: rest => (false, rest)
  | cs => (false, cs)

/-- An exponent: nothing, or the letter e with an optional sign and digits. -/
def readExponent? : List Char → Option Int
  | [] => some 0
  | c :: rest =>
    if c = 'e' ∨ c = 'E' then
      let (negative, digits) := splitSign rest
      if digits.isEmpty || !digits.all Char.isDigit then none
      else some (Double.signed negative (natOf digits))
    else none

/-- Digits with an optional point and exponent; a digit must stand on one side of the point. -/
def readDecimal? (cs : List Char) : Option Decimal :=
  let before := cs.takeWhile Char.isDigit
  let rest := cs.dropWhile Char.isDigit
  let (after, tail) :=
    match rest with
    | '.' :: more => (more.takeWhile Char.isDigit, more.dropWhile Char.isDigit)
    | _ => ([], rest)
  if before.isEmpty && after.isEmpty then none
  else (readExponent? tail).map fun e => ⟨natOf (before ++ after), e - after.length⟩

/-- A number without sign. -/
def readUnsigned? (negative : Bool) (cs : List Char) : Option Double :=
  let word := String.ofList (cs.map Char.toLower)
  if word = "inf" ∨ word = "infinity" then some (.infinite negative)
  else if word = "nan" then some .nan
  else (readDecimal? cs).map (Double.ofDecimal negative)

/-- The number that a text spells. -/
def readDouble? (text : String) : Option Double :=
  (joinDigits false (trimAscii (text.toList.map plainChar))).bind fun cs =>
    let (negative, rest) := splitSign cs
    readUnsigned? negative rest

/-- Whether a text is a plain numeral: blanks, an optional minus sign, digits, an optional point
with digits, blanks. -/
def isNumeral (text : String) : Bool :=
  let cs := trim text.toList
  let body := if cs.head? = some '-' then cs.tail else cs
  let before := body.takeWhile isDecimal
  match body.dropWhile isDecimal with
  | [] => !before.isEmpty
  | c :: after => !before.isEmpty && c == '.' && !after.isEmpty && after.all isDecimal

end Blockscribe.Number
