/-
Values written as JSON.

* `Json.escape`: a text between double quotes with everything outside printable ASCII escaped;
  characters beyond U+FFFF as a pair of surrogates.
* `Json.compact`: a value on one line.
* `Json.indented`: a value with each item on a line of its own, two spaces per level.
-/
import Blockscribe.Value

namespace Blockscribe.Json

/-- The two-character escapes: the character, and the letter behind the backslash. -/
def shortEscapes : List (Char × Char) :=
  [('\x22', '\x22'), ('\\', '\\'), ('\n', 'n'), ('\r', 'r'), ('\t', 't'), ('\x08', 'b'),
    ('\x0c', 'f')]

/-- A UTF-16 code unit as a backslash, the letter u and four hexadecimal digits. -/
def unitEscape (n : Nat) : List Char := '\\' :: 'u' :: Text.Shown.hex 4 n

/-- One character of a text. -/
def escapeChar (c : Char) : List Char :=
  match shortEscapes.lookup c with
  | some letter => ['\\', letter]
  | none =>
    let n := c.toNat
    if 0x20 ≤ n ∧ n ≤ 0x7e then [c]
    else if n < 0x10000 then unitEscape n
    else unitEscape (0xd800 + (n - 0x10000) / 0x400) ++ unitEscape (0xdc00 + (n - 0x10000) % 0x400)

/-- A text between double quotes. -/
def escape (s : String) : String :=
  String.ofList ('\x22' :: s.toList.flatMap escapeChar ++ ['\x22'])

/-- A number. -/
def numberText : Double → String
  | .nan => "NaN"
  | .infinite negative => if negative then "-Infinity" else "Infinity"
  | x => x.text

/-- A value that has no parts. -/
def atom : Value → String
  | .null => "null"
  | .bool b => if b then "true" else "false"
  | .int i => toString i
  | .real x => numberText x
  | .text s => escape s
  | .list _ => "[]"
  | .record _ => "\x7b\x7d"

mutual

/-- A value on one line. -/
def compact : Value → String
  | .list items => "[" ++ ", ".intercalate (compactItems items) ++ "]"
  | .record entries => "\x7b" ++ ", ".intercalate (compactEntries entries) ++ "\x7d"
  | v => atom v

/-- The items of a list on one line. -/
def compactItems : List Value → List String
  | [] => []
  | v :: rest => compact v :: compactItems rest

/-- The entries of a record on one line. -/
def compactEntries : List (String × Value) → List String
  | [] => []
  | (k, v) :: rest => (escape k ++ ": " ++ compact v) :: compactEntries rest

end

/-- A line break and the indentation of a level. -/
def newline (level : Nat) : String := "\n" ++ String.ofList (List.replicate (2 * level) ' ')

/-- Parts between brackets, each on a line of its own. -/
def bracket (opening closing : String) (level : Nat) (parts : List String) : String :=
  opening ++ newline (level + 1) ++ ("," ++ newline (level + 1)).intercalate parts ++
    newline level ++ closing

mutual

/-- A value at a level of indentation. -/
def indentedAt (level : Nat) : Value → String
  | .list (v :: rest) => bracket "[" "]" level (indentedItems (level + 1) (v :: rest))
  | .record (e :: rest) =>
    bracket "\x7b" "\x7d" level (indentedEntries (level + 1) (e :: rest))
  | v => atom v

/-- The items of a list at a level of indentation. -/
def indentedItems (level : Nat) : List Value → List String
  | [] => []
  | v :: rest => indentedAt level v :: indentedItems level rest

/-- The entries of a record at a level of indentation. -/
def indentedEntries (level : Nat) : List (String × Value) → List String
  | [] => []
  | (k, v) :: rest => (escape k ++ ": " ++ indentedAt level v) :: indentedEntries level rest

end

/-- A value with two spaces of indentation per level. -/
def indented (v : Value) : String := indentedAt 0 v

end Blockscribe.Json
