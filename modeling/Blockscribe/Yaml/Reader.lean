/-
Values read from YAML: block mappings and lists, scalars with and without quotes, collections in
brackets, and comments.

* `Yaml.Line`: the indentation and the content of a line, without comment.
* `Yaml.joined?`: the lines of a text, those that belong to one scalar or bracket put together.
* `Yaml.flow?`: a value that is written on one line.
* `Yaml.block?`: a value that is written on lines of its own.
* `Yaml.read?`: the value of a whole text; none if the text is broken.
-/
import Blockscribe.Json.Reader
import Blockscribe.Text.Lines
import Blockscribe.Yaml.Plain

namespace Blockscribe.Yaml

/-- The content of a line and how many spaces stand before it. -/
structure Line where
  indent : Nat
  content : List Char

/-- Whether a character is a space or a tab. -/
def isSpace (c : Char) : Bool := c == ' ' || c == '\t'

/-- Drops spaces and tabs at the start. -/
def skipSpaces (cs : List Char) : List Char := cs.dropWhile isSpace

/-- Drops spaces and tabs at the end. -/
def dropSpaces (cs : List Char) : List Char := (cs.reverse.dropWhile isSpace).reverse

/-- A text in single quotes, from behind the opening one; a doubled quote stands for one. -/
def readSingle? : List Char → Option (List Char × List Char)
  | [] => none
  | c :: rest =>
    if c = '\x27' then
      match rest with
      | d :: more =>
        if d = '\x27' then (readSingle? more).map fun (s, left) => (c :: s, left)
        else some ([], d :: more)
      | [] => some ([], [])
    else (readSingle? rest).map fun (s, left) => (c :: s, left)

/-- What the letter of an escape stands for. -/
def escapeValue? (c : Char) : Option Nat :=
  [('0', 0), ('a', 7), ('b', 8), ('t', 9), ('\t', 9), ('n', 0xa), ('v', 0xb), ('f', 0xc),
    ('r', 0xd), ('e', 0x1b), (' ', 0x20), ('\x22', 0x22), ('/', 0x2f), ('\\', 0x5c), ('N', 0x85),
    ('_', 0xa0), ('L', 0x2028), ('P', 0x2029)].lookup c

/-- How many hexadecimal digits follow the letter of an escape. -/
def escapeDigits? (c : Char) : Option Nat := [('x', 2), ('u', 4), ('U', 8)].lookup c

/-- The value of hexadecimal digits. -/
def hexNumber? (cs : List Char) : Option Nat :=
  cs.foldlM (fun n c => (Json.hexValue? c).map (16 * n + ·)) 0

/-- A text in double quotes, from behind the opening one. After an escape with digits, `skip` of
them are passed over. -/
def readDouble? : Nat → List Char → Option (List Char × List Char)
  | _, [] => none
  | skip + 1, _ :: rest => readDouble? skip rest
  | 0, c :: rest =>
    if c = '\x22' then some ([], rest)
    else if c = '\\' then
      match rest with
      | [] => none
      | letter :: more =>
        match escapeValue? letter, escapeDigits? letter with
        | some n, _ => (readDouble? 0 more).map fun (s, left) => (Json.charOf n :: s, left)
        | none, some count =>
          if more.length < count then none
          else
            (hexNumber? (more.take count)).bind fun n =>
              (readDouble? count more).map fun (s, left) => (Json.charOf n :: s, left)
        | none, none => none
    else (readDouble? 0 rest).map fun (s, left) => (c :: s, left)

/-- A text with line feeds in the place of the other line ends. -/
def unifyBreaks : List Char → List Char
  | [] => []
  | [c] => if c = '\r' then ['\n'] else [c]
  | c :: d :: rest =>
    if c = '\r' ∧ d = '\n' then unifyBreaks (d :: rest)
    else (if c = '\r' then '\n' else c) :: unifyBreaks (d :: rest)

/-- Whether a character may stand in a file. -/
def isAllowed (c : Char) : Bool :=
  let n := c.toNat
  c == '\t' || c == '\n' || c == '\r' || (0x20 ≤ n && n ≤ 0x7e) || n == 0x85 ||
    (0xa0 ≤ n && n ≠ 0xfffe && n ≠ 0xffff)

/-- What is known of a line up to some place outside quotes: the character in front, the last one
that is no space, whether there were only dashes, and how many brackets are open. -/
structure Spot where
  before : Char
  last : Option Char
  onlyDashes : Bool
  depth : Nat

namespace Spot

/-- The start of a line. -/
def start : Spot := ⟨' ', none, true, 0⟩

/-- Whether a scalar or a bracket may start here. -/
def startsToken (s : Spot) : Bool :=
  match s.last with
  | none => true
  | some c =>
    (s.before == ' ' && (c == ':' || s.onlyDashes)) ||
      (s.depth > 0 && [',', ':', '[', '\x7b'].contains c)

/-- The place behind one more character. -/
def after (s : Spot) (c : Char) : Spot :=
  if c = ' ' then { s with before := c }
  else
    let depth :=
      if (c == '[' || c == '\x7b') && (s.startsToken || s.depth > 0) then s.depth + 1
      else if c == ']' || c == '\x7d' then s.depth - 1
      else s.depth
    ⟨c, some c, s.onlyDashes && c == '-', depth⟩

end Spot

/-- Where a text is read: outside quotes, in a comment, in quotes with blanks held back, or at line
ends in quotes. A line end counts as a space and the empty lines behind it as line feeds; with a
backslash in front the line end counts as nothing. -/
inductive Mode
  | outside
  | comment
  | quoted (quote : Char) (blanks : List Char)
  | folding (quote : Char) (feeds : Nat) (isSpaced : Bool)

/-- The quote and what stands for the blanks before the next character in quotes. -/
def Mode.held : Mode → Option (Char × List Char)
  | .quoted quote blanks => some (quote, blanks)
  | .folding quote 0 isSpaced => some (quote, if isSpaced then [' '] else [])
  | .folding quote feeds _ => some (quote, List.replicate feeds '\n')
  | _ => none

/-- Puts characters in front of the first line. -/
def prepend (front : List Char) : List (List Char) → List (List Char)
  | [] => [front]
  | line :: more => (front ++ line) :: more

/-- Lines without comments. Quoted texts and brackets that go on over several lines are put on one;
tabs may stand in quotes and comments only. -/
def joined? (spot : Spot) : Mode → List Char → Option (List (List Char))
  | .outside, [] => some [[]]
  | .comment, [] => some [[]]
  | _, [] => none
  | mode, c :: rest =>
    match mode.held with
    | some (quote, held) =>
      if isSpace c then
        match mode with
        | .quoted _ blanks => joined? spot (.quoted quote (blanks ++ [c])) rest
        | _ => joined? spot mode rest
      else if c = '\n' then
        match mode with
        | .folding _ feeds isSpaced => joined? spot (.folding quote (feeds + 1) isSpaced) rest
        | _ => joined? spot (.folding quote 0 true) rest
      else if c = '\\' ∧ quote = '\x22' then
        match rest with
        | [] => none
        | d :: more =>
          if d = '\n' then (joined? spot (.folding quote 0 false) more).map (prepend held)
          else (joined? spot (.quoted quote []) more).map (prepend (held ++ [c, d]))
      else if c = quote then
        match rest with
        | d :: more =>
          if d = quote ∧ quote = '\x27' then
            (joined? spot (.quoted quote []) more).map (prepend (held ++ [c, d]))
          else (joined? (spot.after c) .outside (d :: more)).map (prepend (held ++ [c]))
        | [] => some [held ++ [c]]
      else (joined? spot (.quoted quote []) rest).map (prepend (held ++ [c]))
    | none =>
      if c = '\n' then
        if spot.depth > 0 then (joined? (spot.after ' ') .outside rest).map (prepend [' '])
        else (joined? .start .outside rest).map ([] :: ·)
      else if (mode matches .comment) ∨ (c = '#' ∧ spot.before = ' ') then
        joined? spot .comment rest
      else if c = '\t' then none
      else if (c = '\x22' ∨ c = '\x27') ∧ spot.startsToken then
        (joined? spot (.quoted c []) rest).map (prepend [c])
      else (joined? (spot.after c) .outside rest).map (prepend [c])
termination_by _ cs => cs.length

/-- The lines of a text that are not empty; none if the text has a character that may not stand
where it does. -/
def lines? (cs : List Char) : Option (List Line) :=
  if !cs.all isAllowed then none
  else
    (joined? .start .outside (unifyBreaks cs)).map fun raws =>
      raws.filterMap fun raw =>
        let content := dropSpaces raw
        let indent := (content.takeWhile (· = ' ')).length
        if content.length = indent then none else some ⟨indent, content.drop indent⟩

/-- Whether a plain scalar may start with a character that is followed by `next`. -/
def mayStart (c : Char) (next : Option Char) : Bool :=
  if c == '-' || c == '?' || c == ':' then (next.any fun d => !isSpace d)
  else !(",[]\x7b\x7d#&*!|>%@'\"".toList.contains c) && c.toNat != 0x60

/-- The end of a plain scalar inside brackets. -/
def endsInBrackets (cs : List Char) : Bool :=
  match cs with
  | [] => true
  | c :: rest =>
    ",[]\x7b\x7d".toList.contains c ||
      (c == ':' && match rest.head? with
        | none => true
        | some d => isSpace d || ",[]\x7b\x7d".toList.contains d)

/-- A plain scalar inside brackets, and what follows it. -/
def plainInBrackets : List Char → List Char × List Char
  | [] => ([], [])
  | c :: rest =>
    if endsInBrackets (c :: rest) then ([], c :: rest)
    else
      let (s, left) := plainInBrackets rest
      (c :: s, left)

/-- A scalar inside brackets, and what follows it. -/
def scalarInBrackets? (cs : List Char) : Option (Value × List Char) :=
  match cs with
  | [] => none
  | '\x27' :: rest => (readSingle? rest).map fun (s, left) => (.text (String.ofList s), left)
  | '\x22' :: rest => (readDouble? 0 rest).map fun (s, left) => (.text (String.ofList s), left)
  | c :: rest =>
    if mayStart c rest.head? then
      let (s, left) := plainInBrackets cs
      some (plainValue (String.ofList (dropSpaces s)), left)
    else none

mutual

/-- A value inside brackets, to a depth of `fuel`. -/
def inBrackets? : Nat → List Char → Option (Value × List Char)
  | 0, _ => none
  | fuel + 1, cs =>
    match cs with
    | '[' :: rest => (itemsInBrackets? fuel (skipSpaces rest)).map fun (vs, left) => (.list vs, left)
    | '\x7b' :: rest =>
      (entriesInBrackets? fuel (skipSpaces rest)).map fun (es, left) =>
        (.record (Assoc.ofPairs es), left)
    | _ => scalarInBrackets? cs

/-- The items of a list in brackets. -/
def itemsInBrackets? : Nat → List Char → Option (List Value × List Char)
  | 0, _ => none
  | fuel + 1, cs =>
    match cs with
    | ']' :: left => some ([], left)
    | _ =>
      match inBrackets? fuel cs with
      | none => none
      | some (v, rest) =>
        match skipSpaces rest with
        | ',' :: more =>
          (itemsInBrackets? fuel (skipSpaces more)).map fun (vs, left) => (v :: vs, left)
        | ']' :: left => some ([v], left)
        | _ => none

/-- The entries of a record in brackets; only those whose key is a text are kept. -/
def entriesInBrackets? : Nat → List Char → Option (List (String × Value) × List Char)
  | 0, _ => none
  | fuel + 1, cs =>
    match cs with
    | '\x7d' :: left => some ([], left)
    | _ =>
      match scalarInBrackets? cs with
      | none => none
      | some (key, rest) =>
        let after : Option (Value × List Char) :=
          match skipSpaces rest with
          | ':' :: more =>
            match skipSpaces more with
            | ',' :: tail => some (.null, ',' :: tail)
            | '\x7d' :: tail => some (.null, '\x7d' :: tail)
            | body => inBrackets? fuel body
          | tail => some (.null, tail)
        match after with
        | none => none
        | some (v, rest') =>
          let entry := (key.asText?.map fun k => (k, v)).toList
          match skipSpaces rest' with
          | ',' :: more =>
            (entriesInBrackets? fuel (skipSpaces more)).map fun (es, left) => (entry ++ es, left)
          | '\x7d' :: left => some (entry, left)
          | _ => none

end

/-- Whether a key ends here: a colon at the end or before a blank. -/
def endsKey (cs : List Char) : Bool :=
  match cs with
  | [':'] => true
  | ':' :: c :: _ => isSpace c
  | _ => false

/-- A plain scalar outside brackets up to the colon behind it, and what follows. -/
def plainKey : List Char → List Char × List Char
  | [] => ([], [])
  | c :: rest =>
    if endsKey (c :: rest) then ([], c :: rest)
    else
      let (s, left) := plainKey rest
      (c :: s, left)

/-- The key of an entry and what follows its colon; none inside if the line has no key. -/
def key? (cs : List Char) : Option (Option Value × List Char) :=
  let finish := fun (v : Value) (left : List Char) =>
    match skipSpaces left with
    | ':' :: rest => if endsKey (':' :: rest) then some (some v, skipSpaces rest) else none
    | _ => some (none, cs)
  match cs with
  | [] => some (none, cs)
  | '\x27' :: rest => (readSingle? rest).bind fun (s, left) => finish (.text (String.ofList s)) left
  | '\x22' :: rest =>
    (readDouble? 0 rest).bind fun (s, left) => finish (.text (String.ofList s)) left
  | c :: rest =>
    if c = '[' ∨ c = '\x7b' then some (none, cs)
    else if !mayStart c rest.head? then none
    else
      let (s, left) := plainKey cs
      if left.isEmpty then some (none, cs) else finish (plainValue (String.ofList (dropSpaces s))) left

/-- A value that is written on one line. Plain scalars may go on on the lines `more`. -/
def flow? (cs : List Char) (more : List Line) : Option Value :=
  let alone := fun (found : Value × List Char) =>
    if (skipSpaces found.2).isEmpty && more.isEmpty then some found.1 else none
  match cs with
  | [] => some .null
  | c :: rest =>
    if c = '[' ∨ c = '\x7b' then (inBrackets? (cs.length + 1) cs).bind alone
    else if c = '\x27' ∨ c = '\x22' then (scalarInBrackets? cs).bind alone
    else if !mayStart c rest.head? then none
    else if (cs :: more.map Line.content).any fun line => !(plainKey line).2.isEmpty then none
    else
      some (plainValue (String.ofList
        ([' '].intercalate (cs :: more.map Line.content))))

/-- Whether a line is an item of a list. -/
def isItem (l : Line) : Bool :=
  match l.content with
  | ['-'] => true
  | '-' :: c :: _ => isSpace c
  | _ => false

/-- Lines that are indented by more than `n`, and the lines from the first other one on. -/
def deeper (n : Nat) (ls : List Line) : List Line × List Line :=
  (ls.takeWhile fun l => l.indent > n, ls.dropWhile fun l => l.indent > n)

mutual

/-- The value of lines that belong together, to a depth of `fuel`. -/
def block? : Nat → List Line → Option Value
  | 0, _ => none
  | fuel + 1, ls =>
    match ls with
    | [] => some .null
    | first :: rest =>
      if isItem first then (items? fuel first.indent ls).map .list
      else
        match key? first.content with
        | none => none
        | some (some _, _) =>
          (entries? fuel first.indent ls).map fun es => .record (Assoc.ofPairs es)
        | some (none, _) => flow? first.content rest

/-- The items of a list at an indentation. -/
def items? : Nat → Nat → List Line → Option (List Value)
  | 0, _, _ => none
  | _ + 1, _, [] => some []
  | fuel + 1, n, l :: rest =>
    if l.indent ≠ n ∨ !isItem l then none
    else
      let (inner, after) := deeper n rest
      let body := skipSpaces l.content.tail
      let offset := l.content.length - body.length
      let own := if body.isEmpty then inner else ⟨n + offset, body⟩ :: inner
      (block? fuel own).bind fun v => (items? fuel n after).map (v :: ·)

/-- The entries of a mapping at an indentation; only those whose key is a text are kept. -/
def entries? : Nat → Nat → List Line → Option (List (String × Value))
  | 0, _, _ => none
  | _ + 1, _, [] => some []
  | fuel + 1, n, l :: rest =>
    if l.indent ≠ n then none
    else
      match key? l.content with
      | some (some k, body) =>
        let (inner, after) := deeper n rest
        let listed := if inner.isEmpty then after.takeWhile fun x => x.indent = n && isItem x else []
        let value :=
          if !body.isEmpty then flow? body inner
          else block? fuel (if inner.isEmpty then listed else inner)
        let left := if body.isEmpty && inner.isEmpty then after.drop listed.length else after
        value.bind fun v =>
          (entries? fuel n left).map fun es => (k.asText?.map fun s => (s, v)).toList ++ es
      | _ => none

end

/-- The value of a whole text. -/
def read? (s : String) : Option Value :=
  (lines? s.toList).bind fun ls =>
    let body :=
      match ls with
      | ⟨0, ['-', '-', '-']⟩ :: rest => rest
      | _ => ls
    block? (s.length + 2) body

end Blockscribe.Yaml
