/-
Values written as YAML, in block style.

* `Yaml.Quoting`: the three ways to write a text: plain, in single quotes, in double quotes.
* `Yaml.quotingOf`: which way a text needs. Plain texts must not be mistaken for anything else, and
  only double quotes have escapes.
* `Yaml.scalar`: a value without parts. Texts that run past the eightieth column are folded at a
  space.
* `Yaml.write`: a whole value, entry by entry.
-/
import Blockscribe.Text.Lines
import Blockscribe.Yaml.Plain

namespace Blockscribe.Yaml

/-- The ways to write a text. -/
inductive Quoting
  | plain
  | single
  | double
  deriving DecidableEq, Repr

/-- The column past which texts are folded. -/
def lineWidth : Nat := 80

/-- Whether a character separates tokens, as the end of a text does. -/
def separates : Option Char → Bool
  | none => true
  | some c => [0, 0x20, 9, 0xd, 0xa, 0x85, 0x2028, 0x2029].contains c.toNat

/-- Whether a character at the start of a text, followed by `next`, has a meaning of its own. -/
def startsToken (c : Char) (next : Option Char) : Bool :=
  "#,[]\x7b\x7d&*!|>'\"%@".toList.contains c || c.toNat == 0x60 ||
    ((c == '?' || c == ':' || c == '-') && separates next)

/-- Whether a character inside a text, between `before` and `next`, has a meaning of its own. -/
def splitsToken (before c : Char) (next : Option Char) : Bool :=
  (c == ':' && separates next) || (c == '#' && separates (some before))

/-- Whether a text after its first character holds a character with a meaning of its own. -/
def hasTokens (before : Char) : List Char → Bool
  | [] => false
  | c :: rest => splitsToken before c rest.head? || hasTokens c rest

/-- Whether a text cannot be told from the structure around it. -/
def looksLikeStructure (cs : List Char) : Bool :=
  match cs with
  | [] => false
  | c :: rest =>
    "---".toList.isPrefixOf cs || "...".toList.isPrefixOf cs || startsToken c rest.head? ||
      hasTokens c rest

/-- Whether a character can only be written as an escape. -/
def needsEscape (c : Char) : Bool := !(c == '\n' || (' ' ≤ c && c ≤ '~'))

/-- Whether a space stands directly beside a line feed. -/
def hasSpaceAtBreak : List Char → Bool
  | a :: b :: rest =>
    (a == ' ' && b == '\n') || (a == '\n' && b == ' ') || hasSpaceAtBreak (b :: rest)
  | _ => false

/-- The way in which a text is written. -/
def quotingOf (s : String) : Quoting :=
  let cs := s.toList
  let atEnds := fun c => cs.head? == some c || cs.getLast? == some c
  if cs.any needsEscape || hasSpaceAtBreak cs then .double
  else if staysText s && !atEnds ' ' && !cs.contains '\n' && !looksLikeStructure cs then .plain
  else .single

/-- A line break with the indentation of the lines that go on. -/
def fold (indent : Nat) : List Char := '\n' :: List.replicate indent ' '

/-- Cuts a text into runs of spaces, of line feeds and of other characters. -/
def runs (cs : List Char) : List (List Char) :=
  cs.splitBy fun a b => (a == ' ') == (b == ' ') && (a == '\n') == (b == '\n')

/-- Writes runs from a column on. A single space past the line width becomes a line break, unless
it stands at an end of the text and `endsKept` says to keep those. -/
def writeRuns (indent : Nat) (endsKept : Bool) (column : Nat) (isFirst : Bool) :
    List (List Char) → List Char
  | [] => []
  | run :: rest =>
    if run = [' '] ∧ column > lineWidth ∧ !(endsKept && (isFirst || rest.isEmpty)) then
      fold indent ++ writeRuns indent endsKept indent false rest
    else if run.head? = some '\n' then
      '\n' :: run ++ List.replicate indent ' ' ++ writeRuns indent endsKept indent false rest
    else
      let written := run.flatMap fun c => if c = '\x27' ∧ endsKept then [c, c] else [c]
      written ++ writeRuns indent endsKept (column + written.length) false rest

/-- The letters of the escapes in double quotes. -/
def escapeLetters : List (Nat × Char) :=
  [(0, '0'), (7, 'a'), (8, 'b'), (9, 't'), (0xa, 'n'), (0xb, 'v'), (0xc, 'f'), (0xd, 'r'),
    (0x1b, 'e'), (0x22, '\x22'), (0x5c, '\\'), (0x85, 'N'), (0xa0, '_'), (0x2028, 'L'),
    (0x2029, 'P')]

/-- An escape in double quotes. -/
def escapeOf (c : Char) : List Char :=
  match escapeLetters.lookup c.toNat with
  | some letter => ['\\', letter]
  | none =>
    let digits := fun width => (Text.Shown.hex width c.toNat).map Char.toUpper
    if c.toNat ≤ 0xff then '\\' :: 'x' :: digits 2
    else if c.toNat ≤ 0xffff then '\\' :: 'u' :: digits 4
    else '\\' :: 'U' :: digits 8

/-- Whether a character is escaped in double quotes. -/
def isEscaped (c : Char) : Bool := !(' ' ≤ c && c ≤ '~') || c == '\x22' || c == '\\'

/-- Writes a text in double quotes from a column on. `pending` characters have been written since
the last escape or fold, and the column counts up to there. A backslash ends a folded line, and
another one keeps a space at the start of the next. -/
def writeDouble (indent column pending : Nat) (isFirst : Bool) : List Char → List Char
  | [] => []
  | c :: rest =>
    let mayFold := !isFirst && !rest.isEmpty
    if isEscaped c then
      let column' := column + pending + (escapeOf c).length
      if mayFold && column' > lineWidth + 1 then
        escapeOf c ++ '\\' :: fold indent ++
          (if rest.head? = some ' ' then ['\\'] else []) ++
          writeDouble indent (indent + (if rest.head? = some ' ' then 1 else 0)) 0 false rest
      else escapeOf c ++ writeDouble indent column' 0 false rest
    else if mayFold && (c == ' ' || pending == 0) && column + pending > lineWidth then
      '\\' :: fold indent ++ (if c = ' ' then ['\\', c] else [c]) ++
        writeDouble indent (indent + (if c = ' ' then 1 else 0)) 1 false rest
    else c :: writeDouble indent column (pending + 1) false rest

/-- A text that starts at a column; `indent` is the indentation of the lines that go on. -/
def scalarText (indent column : Nat) (s : String) : List Char :=
  match quotingOf s with
  | .plain => writeRuns indent false column true (runs s.toList)
  | .single =>
    '\x27' :: writeRuns indent true (column + 1) true (runs s.toList) ++ ['\x27']
  | .double => '\x22' :: writeDouble indent (column + 1) 0 true s.toList ++ ['\x22']

/-- A number with a point. -/
def realText : Double → String
  | .nan => ".nan"
  | .infinite negative => if negative then "-.inf" else ".inf"
  | x =>
    let cs := x.text.toList
    if cs.contains '.' || !cs.contains 'e' then x.text
    else
      String.ofList
        (cs.takeWhile (· ≠ 'e') ++ ['.', '0'] ++ cs.dropWhile (· ≠ 'e'))

/-- A value without parts. -/
def scalar (indent column : Nat) : Value → String
  | .null => "null"
  | .bool b => if b then "true" else "false"
  | .int i => toString i
  | .real x => realText x
  | .text s => String.ofList (scalarText indent column s)
  | .list _ => "[]"
  | .record _ => "\x7b\x7d"

/-- Spaces. -/
def spaces (n : Nat) : String := String.ofList (List.replicate n ' ')

mutual

/-- What follows the key of an entry at a level: a scalar on the same line, or lines of its own. -/
def entryValue (level column : Nat) : Value → String
  | .list (v :: rest) => "\n" ++ writeItems level (v :: rest)
  | .record (e :: rest) => "\n" ++ writeEntries (level + 2) (e :: rest)
  | v => " " ++ scalar (level + 2) (column + 1) v ++ "\n"

/-- The items of a list, each behind a dash. -/
def writeItems (level : Nat) : List Value → String
  | [] => ""
  | v :: rest => spaces level ++ "-" ++ entryValue (level + 2) (level + 1) v ++ writeItems level rest

/-- The entries of a record, one per line. -/
def writeEntries (level : Nat) : List (String × Value) → String
  | [] => ""
  | (k, v) :: rest =>
    let key := String.ofList (scalarText 0 0 k)
    spaces level ++ key ++ ":" ++ entryValue level (level + key.length + 1) v ++
      writeEntries level rest

end

/-- A record with an entry per line. -/
def write : Value → String
  | .record (e :: rest) => writeEntries 0 (e :: rest)
  | .list (v :: rest) => writeItems 0 (v :: rest)
  | v => scalar 0 0 v ++ "\n"

end Blockscribe.Yaml
