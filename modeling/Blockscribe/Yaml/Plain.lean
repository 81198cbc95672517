/-
Plain scalars of YAML 1.1: texts without quotes that may stand for something else than themselves.

* `Yaml.plainValue`: what a plain scalar stands for: null, a truth value, a number, or itself.
* `Yaml.isTimestamp`: the plain scalars that stand for points in time. They are read as texts, but
  a text of that form is never written plain.
* `Yaml.staysText`: whether a text may be written plain without becoming something else.
-/
import Blockscribe.Number.Reading
import Blockscribe.Value

namespace Blockscribe.Yaml

/-- The plain scalars for null. -/
def nullWords : List String := ["", "~", "null", "Null", "NULL"]

/-- The plain scalars for true. -/
def trueWords : List String :=
  ["yes", "Yes", "YES", "true", "True", "TRUE", "on", "On", "ON"]

/-- The plain scalars for false. -/
def falseWords : List String :=
  ["no", "No", "NO", "false", "False", "FALSE", "off", "Off", "OFF"]

/-- Takes a sign off. -/
def unsign (cs : List Char) : Bool × List Char := Number.splitSign cs

/-- The value of digits in a base; underscores are skipped. -/
def inBase (base : Nat) (cs : List Char) : Nat :=
  (cs.filter (· ≠ '_')).foldl (fun n c => base * n + (Text.decimalValue? c).getD
    (c.toLower.toNat - 'a'.toNat + 10)) 0

/-- Whether a character is a digit of a base or an underscore. -/
def isDigitOf (base : Nat) (c : Char) : Bool :=
  c == '_' ||
    match base with
    | 2 => c == '0' || c == '1'
    | 8 => '0' ≤ c && c ≤ '7'
    | 16 => c.isDigit || ('a' ≤ c.toLower && c.toLower ≤ 'f')
    | _ => c.isDigit

/-- The parts of a text between colons. -/
def colonParts (cs : List Char) : List (List Char) :=
  cs.splitBy (fun a b => a ≠ ':' ∧ b ≠ ':') |>.filter (· ≠ [':'])

/-- Whether the text behind a first colon is made of groups of sixty: one or two digits below sixty
each, with one colon in front of every group. -/
def areSixties : List Char → Bool
  | [] => true
  | ':' :: a :: rest =>
    match rest with
    | b :: more =>
      if b.isDigit then decide ('0' ≤ a ∧ a ≤ '5') && areSixties more
      else a.isDigit && areSixties (b :: more)
    | [] => a.isDigit
  | _ => false

/-- The value of groups of sixty. -/
def inSixties (cs : List Char) : Nat :=
  (colonParts cs).foldl (fun n part => 60 * n + inBase 10 part) 0

/-- The whole number that a plain scalar without sign stands for. -/
def wholeValue? (cs : List Char) : Option Nat :=
  match cs with
  | [] => none
  | '0' :: 'b' :: rest =>
    if !rest.isEmpty && rest.all (isDigitOf 2) then some (inBase 2 rest) else none
  | '0' :: 'x' :: rest =>
    if !rest.isEmpty && rest.all (isDigitOf 16) then some (inBase 16 rest) else none
  | '0' :: rest => if rest.all (isDigitOf 8) then some (inBase 8 rest) else none
  | c :: rest =>
    if !c.isDigit then none
    else if rest.all (isDigitOf 10) then some (inBase 10 cs)
    else if areSixties (rest.dropWhile (isDigitOf 10)) then some (inSixties cs)
    else none

/-- An exponent with its sign, or nothing. -/
def isExponent : List Char → Bool
  | [] => true
  | e :: sign :: digits =>
    (e == 'e' || e == 'E') && (sign == '-' || sign == '+') && !digits.isEmpty &&
      digits.all Char.isDigit
  | _ => false

/-- Whether a plain scalar without sign is a decimal fraction. -/
def isFraction (cs : List Char) : Bool :=
  let before := cs.takeWhile (isDigitOf 10)
  match before, cs.dropWhile (isDigitOf 10) with
  | [], '.' :: d :: rest => d.isDigit && isExponent (rest.dropWhile (isDigitOf 10))
  | c :: _, '.' :: rest => c.isDigit && isExponent (rest.dropWhile (isDigitOf 10))
  | _, _ => false

/-- Whether a plain scalar without sign is made of groups of sixty and a fraction. -/
def isSixtiesFraction (cs : List Char) : Bool :=
  let before := cs.takeWhile (· ≠ '.')
  let after := cs.dropWhile (· ≠ '.')
  match before, after with
  | c :: rest, '.' :: digits =>
    c.isDigit && rest.contains ':' && areSixties (rest.dropWhile (isDigitOf 10)) &&
      digits.all (isDigitOf 10)
  | _, _ => false

/-- The number of a decimal fraction. -/
def fractionValue (negative : Bool) (cs : List Char) : Value :=
  match Number.readUnsigned? negative (cs.filter (· ≠ '_')) with
  | some x => .real x
  | none => .real .nan

/-- The number that a plain scalar stands for. -/
def numberValue? (cs : List Char) : Option Value :=
  let (negative, body) := unsign cs
  let word := String.ofList body
  match wholeValue? body with
  | some n => some (.int (Double.signed negative n))
  | none =>
    if [".inf", ".Inf", ".INF"].contains word then some (.real (.infinite negative))
    else if [".nan", ".NaN", ".NAN"].contains (String.ofList cs) then some (.real .nan)
    else if isFraction body && (body.head? ≠ some '.' || body == cs) then
      some (fractionValue negative body)
    else if isSixtiesFraction body then
      some (.real (Double.round negative
        (inSixties (body.takeWhile (· ≠ '.'))) 1))
    else none

/-- What a plain scalar stands for. -/
def plainValue (s : String) : Value :=
  if nullWords.contains s then .null
  else if trueWords.contains s then .bool true
  else if falseWords.contains s then .bool false
  else (numberValue? s.toList).getD (.text s)

/-- One or two digits at the start of a text, and what follows. -/
def shortNumber? : List Char → Option (List Char)
  | a :: b :: rest => if !a.isDigit then none else some (if b.isDigit then rest else b :: rest)
  | [a] => if a.isDigit then some [] else none
  | [] => none

/-- A fixed count of digits at the start of a text, and what follows. -/
def digits? : Nat → List Char → Option (List Char)
  | 0, cs => some cs
  | n + 1, c :: rest => if c.isDigit then digits? n rest else none
  | _ + 1, [] => none

/-- One given character at the start of a text, and what follows. -/
def mark? (m : Char) : List Char → Option (List Char)
  | c :: rest => if c = m then some rest else none
  | [] => none

/-- A zone at the end of a point in time. -/
def isZone (cs : List Char) : Bool :=
  match cs.dropWhile (fun c => c == ' ' || c == '\t') with
  | [] => cs.isEmpty
  | ['Z'] => true
  | sign :: rest =>
    (sign == '-' || sign == '+') &&
      match shortNumber? rest with
      | some [] => true
      | some tail => ((mark? ':' tail).bind (digits? 2)) == some []
      | none => false

/-- Whether a plain scalar stands for a day or a point in time. -/
def isTimestamp (s : String) : Bool :=
  let day := do digits? 2 (← mark? '-' (← digits? 2 (← mark? '-' (← digits? 4 s.toList))))
  let time := do
    let date ← shortNumber? (← mark? '-' (← shortNumber? (← mark? '-' (← digits? 4 s.toList))))
    let clock ←
      match date with
      | 'T' :: rest => some rest
      | 't' :: rest => some rest
      | c :: rest =>
        if c = ' ' ∨ c = '\t' then some (rest.dropWhile fun d => d == ' ' || d == '\t') else none
      | [] => none
    let seconds ← digits? 2 (← mark? ':' (← digits? 2 (← mark? ':' (← shortNumber? clock))))
    return match seconds with
      | '.' :: rest => isZone (rest.dropWhile Char.isDigit)
      | rest => isZone rest
  day == some [] || time == some true

/-- Whether a text may be written plain without becoming something else. -/
def staysText (s : String) : Bool :=
  !(["=", "<<"].contains s) && !isTimestamp s &&
    match plainValue s with
    | .text _ => true
    | _ => false

end Blockscribe.Yaml
