/-
Values read from JSON.

* `Json.read?`: the value that a text spells, with blanks around it. Besides the standard numbers
  the words for not-a-number and the infinities are read. Of entries with equal keys the last one
  counts.
* `Json.readText?`, `readNumber?`, `readValue?`: the parts of the grammar; each gives what it read
  and what is left.
-/
import Blockscribe.Number.Reading
import Blockscribe.Value

namespace Blockscribe.Json

/-- Drops blanks, of which there are four. -/
def skip (cs : List Char) : List Char :=
  cs.dropWhile fun c => c == ' ' || c == '\t' || c == '\n' || c == '\r'

/-- The value of a hexadecimal digit. -/
def hexValue? (c : Char) : Option Nat :=
  if '0' ≤ c ∧ c ≤ '9' then some (c.toNat - '0'.toNat)
  else if 'a' ≤ c ∧ c ≤ 'f' then some (c.toNat - 'a'.toNat + 10)
  else if 'A' ≤ c ∧ c ≤ 'F' then some (c.toNat - 'A'.toNat + 10)
  else none

/-- The value of four hexadecimal digits. -/
def unitValue? (a b c d : Char) : Option Nat := do
  return 4096 * (← hexValue? a) + 256 * (← hexValue? b) + 16 * (← hexValue? c) + (← hexValue? d)

/-- The character that a letter behind a backslash stands for. -/
def shortEscape? (c : Char) : Option Nat :=
  [('\x22', 0x22), ('\\', 0x5c), ('/', 0x2f), ('b', 8), ('f', 12), ('n', 10), ('r', 13),
    ('t', 9)].lookup c

/-- The code points and surrogates of a text, from behind its opening quote. -/
def readUnits? : List Char → Option (List Nat × List Char)
  | [] => none
  | c :: rest =>
    if c = '\x22' then some ([], rest)
    else if c = '\\' then
      match rest with
      | 'u' :: h₁ :: h₂ :: h₃ :: h₄ :: more =>
        match unitValue? h₁ h₂ h₃ h₄ with
        | some n => (readUnits? more).map fun (units, left) => (n :: units, left)
        | none => none
      | letter :: more =>
        match shortEscape? letter with
        | some n => (readUnits? more).map fun (units, left) => (n :: units, left)
        | none => none
      | [] => none
    else if c.toNat < 0x20 then none
    else (readUnits? rest).map fun (units, left) => (c.toNat :: units, left)

/-- The character of a code point; a lone surrogate becomes the replacement character. -/
def charOf (n : Nat) : Char := if n.isValidChar then Char.ofNat n else Char.ofNat 0xfffd

/-- Joins pairs of surrogates. -/
def joinPairs : List Nat → List Char
  | [] => []
  | [n] => [charOf n]
  | high :: low :: rest =>
    if 0xd800 ≤ high ∧ high < 0xdc00 ∧ 0xdc00 ≤ low ∧ low < 0xe000 then
      charOf (0x10000 + (high - 0xd800) * 0x400 + (low - 0xdc00)) :: joinPairs rest
    else charOf high :: joinPairs (low :: rest)

/-- A text, from behind its opening quote. -/
def readText? (cs : List Char) : Option (String × List Char) :=
  (readUnits? cs).map fun (units, left) => (String.ofList (joinPairs units), left)

/-- A nonempty run of digits. -/
def readDigits? (cs : List Char) : Option (List Char × List Char) :=
  match cs.takeWhile Char.isDigit with
  | [] => none
  | digits => some (digits, cs.dropWhile Char.isDigit)

/-- The digits in front of the point; a leading zero stands alone. -/
def readWhole? (cs : List Char) : Option (List Char × List Char) :=
  match cs with
  | '0' :: rest => some (['0'], rest)
  | _ => readDigits? cs

/-- A point and digits, if there are any. -/
def readFraction (cs : List Char) : List Char × List Char :=
  match cs with
  | '.' :: rest => (readDigits? rest).getD ([], cs)
  | _ => ([], cs)

/-- The letter e, a sign and digits, if there are any. -/
def readExponent (cs : List Char) : Option Int × List Char :=
  match cs with
  | [] => (none, [])
  | c :: rest =>
    if c = 'e' ∨ c = 'E' then
      let (negative, tail) := Number.splitSign rest
      match readDigits? tail with
      | some (digits, left) => (some (Double.signed negative (Number.natOf digits)), left)
      | none => (none, cs)
    else (none, cs)

/-- A number: whole without a point and an exponent. -/
def readNumber? (cs : List Char) : Option (Value × List Char) :=
  let (negative, body) :=
    match cs with
    | '-' :: rest => (true, rest)
    | _ => (false, cs)
  match readWhole? body with
  | none => none
  | some (whole, rest) =>
    let (fraction, rest') := readFraction rest
    let (exponent, left) := readExponent rest'
    if fraction.isEmpty && exponent.isNone then
      some (.int (Double.signed negative (Number.natOf whole)), left)
    else
      let decimal : Decimal :=
        ⟨Number.natOf (whole ++ fraction), exponent.getD 0 - fraction.length⟩
      some (.real (Double.ofDecimal negative decimal), left)

/-- The words that stand for values. -/
def words : List (List Char × Value) :=
  [("null".toList, .null), ("true".toList, .bool true), ("false".toList, .bool false),
    ("NaN".toList, .real .nan), ("Infinity".toList, .real (.infinite false)),
    ("-Infinity".toList, .real (.infinite true))]

/-- A word or a number. -/
def readAtom? (cs : List Char) : Option (Value × List Char) :=
  match words.find? fun (word, _) => word.isPrefixOf cs with
  | some (word, v) => some (v, cs.drop word.length)
  | none => readNumber? cs

mutual

/-- A value, to a depth of `fuel`. -/
def readValue? : Nat → List Char → Option (Value × List Char)
  | 0, _ => none
  | fuel + 1, cs =>
    match cs with
    | '\x22' :: rest => (readText? rest).map fun (s, left) => (.text s, left)
    | '[' :: rest =>
      match skip rest with
      | ']' :: left => some (.list [], left)
      | body => (readItems? fuel body).map fun (items, left) => (.list items, left)
    | '\x7b' :: rest =>
      match skip rest with
      | '\x7d' :: left => some (.record [], left)
      | body =>
        (readEntries? fuel body).map fun (entries, left) => (.record (Assoc.ofPairs entries), left)
    | _ => readAtom? cs

/-- The items of a list, from its first item on. -/
def readItems? : Nat → List Char → Option (List Value × List Char)
  | 0, _ => none
  | fuel + 1, cs =>
    match readValue? fuel cs with
    | none => none
    | some (v, rest) =>
      match skip rest with
      | ',' :: more => (readItems? fuel (skip more)).map fun (items, left) => (v :: items, left)
      | ']' :: left => some ([v], left)
      | _ => none

/-- The entries of a record, from its first key on. -/
def readEntries? : Nat → List Char → Option (List (String × Value) × List Char)
  | 0, _ => none
  | fuel + 1, cs =>
    match cs with
    | '\x22' :: afterQuote =>
      match readText? afterQuote with
      | none => none
      | some (key, rest) =>
        match skip rest with
        | ':' :: afterColon =>
          match readValue? fuel (skip afterColon) with
          | none => none
          | some (v, rest') =>
            match skip rest' with
            | ',' :: more =>
              (readEntries? fuel (skip more)).map fun (entries, left) =>
                ((key, v) :: entries, left)
            | '\x7d' :: left => some ([(key, v)], left)
            | _ => none
        | _ => none
    | _ => none

end

/-- The value that a text spells. -/
def read? (s : String) : Option Value :=
  match readValue? (s.toList.length + 1) (skip s.toList) with
  | some (v, rest) => if (skip rest).isEmpty then some v else none
  | none => none

end Blockscribe.Json
