/-
The layout of a program text.

* `collapse`: runs of empty lines become one empty line, and two empty lines end the text.
* `tidy`: no blank lines at the start, no blank text after the last line, no spaces at line ends.
* `isImport`: whether a definition is an import line.
* `squeeze_squeeze`: collapsing runs of empty lines a second time changes nothing.
-/
import Blockscribe.Text.Blank

namespace Blockscribe.Program

open Blockscribe.Text

/-- Shortens runs of line feeds to two; `run` line feeds stand before the text. -/
def squeeze (run : Nat) : List Char → List Char
  | [] => []
  | c :: rest =>
    if c = '\n' then
      if run ≥ 2 then squeeze run rest else c :: squeeze (run + 1) rest
    else c :: squeeze 0 rest

/-- Drops the line feeds at the end of a text. -/
def dropLastBreaks (cs : List Char) : List Char := (cs.reverse.dropWhile (· = '\n')).reverse

/-- Collapses runs of empty lines to one and ends the text with two. -/
def collapseChars (cs : List Char) : List Char :=
  dropLastBreaks (squeeze 0 cs) ++ ['\n', '\n', '\n']

/-- Drops the blank lines at the start of a text, the first line only if it is not empty. -/
def dropLeadingLines (cs : List Char) : List Char :=
  let lead := cs.takeWhile isBlank
  let last := lead.reverse.takeWhile (· ≠ '\n')
  let through := lead.length - last.length
  if through ≥ 2 then cs.drop through else cs

/-- Cuts the blank end of a text after its first line feed. -/
def dropTrailingLines (cs : List Char) : List Char :=
  let body := trimRight cs
  let tail := cs.drop body.length
  let line := tail.takeWhile (· ≠ '\n')
  if tail.length > line.length + 1 then body ++ line ++ ['\n'] else cs

/-- Drops the spaces and tabs in front of every line feed. -/
def dropLineEnds : List Char → List Char
  | [] => []
  | c :: rest =>
    let done := dropLineEnds rest
    if (c = ' ' ∨ c = '\t') ∧ done.head? = some '\n' then done else c :: done

/-- Drops the blank start, the blank end and the spaces at line ends. -/
def tidyChars (cs : List Char) : List Char :=
  dropLineEnds (dropTrailingLines (dropLeadingLines cs))

/-- What follows one or more blanks at the start of a text; none without a blank there. -/
def afterBlanks? (cs : List Char) : Option (List Char) :=
  match cs with
  | [] => none
  | c :: rest => if isBlank c then some (trimLeft rest) else none

/-- What follows a word at the start of a text. -/
def afterWord? (word cs : List Char) : Option (List Char) :=
  if word.isPrefixOf cs then some (cs.drop word.length) else none

/-- Whether a text starts with the word `import`, blanks and something else. -/
def startsImport (cs : List Char) : Bool :=
  match (afterWord? "import".toList cs).bind afterBlanks? with
  | some (_ :: _) => true
  | _ => false

/-- Whether a text starts with the word `from`, blanks, a module, blanks and an import. -/
def startsFromImport (cs : List Char) : Bool :=
  match (afterWord? "from".toList cs).bind afterBlanks? with
  | some (c :: rest) =>
    match afterBlanks? ((c :: rest).dropWhile fun d => !isBlank d) with
    | some tail => startsImport tail
    | none => false
  | _ => false

/-- Whether a definition is an import line. -/
def isImport (text : String) : Bool :=
  startsImport text.toList || startsFromImport text.toList

/-- Collapses runs of empty lines to one and ends the text with two. -/
def collapse (text : String) : String := String.ofList (collapseChars text.toList)

/-- Drops the blank start, the blank end and the spaces at line ends. -/
def tidy (text : String) : String := String.ofList (tidyChars text.toList)

/-- Shortening runs of line feeds a second time changes nothing. -/
theorem squeeze_squeeze (run : Nat) (cs : List Char) :
    squeeze run (squeeze run cs) = squeeze run cs := by
  induction cs generalizing run with
  | nil => rfl
  | cons c rest ih =>
    by_cases hc : c = '\n'
    · by_cases hr : run ≥ 2
      · simp [squeeze, hc, hr, ih]
      · simp [squeeze, hc, hr, ih]
    · simp [squeeze, hc, ih]

end Blockscribe.Program
