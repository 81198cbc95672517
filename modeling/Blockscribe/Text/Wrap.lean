/-
Filling paragraphs to a width.

* `expandTabs`, `respace`: tabs become spaces up to the next multiple of eight columns, and every
  ASCII blank becomes a space.
* `chunks`: a paragraph cut into runs of spaces and runs of everything else; `flatten_chunks` says
  that the runs make up the paragraph.
* `Filling`: the state of greedy filling. A blank run at the start of a line other than the first
  is left out, one at the end of any line is left out, and a word that is longer than the width has
  a line to itself.
* `wrapText`: fills every paragraph of a text and keeps its line breaks.

The width enters only through the test whether a line of a given length fits.
-/
import Blockscribe.Text.Blank
import Blockscribe.Text.Lines

namespace Blockscribe.Text

/-- Columns between tab stops. -/
def tabStop : Nat := 8

/-- Replaces tabs by spaces, for text that starts at column `column`. Line feeds and carriage
returns start at column zero again. -/
def expandTabs (column : Nat) : List Char → List Char
  | [] => []
  | c :: rest =>
    if c = '\t' then
      List.replicate (tabStop - column % tabStop) ' ' ++
        expandTabs (column + (tabStop - column % tabStop)) rest
    else if c = '\n' ∨ c = '\r' then c :: expandTabs 0 rest
    else c :: expandTabs (column + 1) rest

/-- The paragraph with tabs expanded and each remaining ASCII blank made a space. -/
def respace (cs : List Char) : List Char :=
  (expandTabs 0 cs).map fun c => if isAsciiBlank c then ' ' else c

/-- Cuts a text into maximal runs of ASCII blanks and of other characters. -/
def chunks : List Char → List (List Char)
  | [] => []
  | c :: rest =>
    match chunks rest with
    | (d :: run) :: more =>
      if isAsciiBlank c = isAsciiBlank d then (c :: d :: run) :: more
      else [c] :: (d :: run) :: more
    | more => [c] :: more

/-- The runs make up the text. -/
theorem flatten_chunks (cs : List Char) : (chunks cs).flatten = cs := by
  induction cs with
  | nil => rfl
  | cons c rest ih =>
    unfold chunks
    split
    · rename_i d run more h
      rw [h] at ih
      split <;> simpa using ih
    · simpa using ih

/-- The state of filling: the lines done, latest first; the runs on the present line, latest first;
their total length; and whether nothing has yet been put on or left out of the present line. -/
structure Filling where
  done : List (List Char)
  line : List (List Char)
  used : Nat
  fresh : Bool

namespace Filling

/-- Nothing done yet. -/
def start : Filling := ⟨[], [], 0, true⟩

/-- The present line without a blank run at its end. -/
def settled (s : Filling) : List (List Char) :=
  match s.line with
  | last :: rest => if allBlank last then rest else s.line
  | [] => []

/-- Ends the present line; a line without runs is no line. -/
def flush (s : Filling) : Filling :=
  match s.settled with
  | [] => ⟨s.done, [], 0, true⟩
  | runs => ⟨runs.reverse.flatten :: s.done, [], 0, true⟩

/-- Puts a run on the present line, which is empty or has room for it. -/
def place (fits : Nat → Bool) (s : Filling) (run : List Char) : Filling :=
  if s.fresh && !s.done.isEmpty && allBlank run then { s with fresh := false }
  else if fits (s.used + run.length) then
    ⟨s.done, run :: s.line, s.used + run.length, false⟩
  else flush ⟨s.done, [run], run.length, false⟩

/-- Takes the next run: on the present line if it fits there, else on a new one. -/
def step (fits : Nat → Bool) (s : Filling) (run : List Char) : Filling :=
  if s.line.isEmpty || fits (s.used + run.length) then s.place fits run
  else s.flush.place fits run

/-- The lines, first to last. -/
def lines (s : Filling) : List (List Char) := s.flush.done.reverse

end Filling

/-- The lines of one filled paragraph. -/
def fillParagraph (fits : Nat → Bool) (paragraph : List Char) : List (List Char) :=
  ((chunks (respace paragraph)).foldl (Filling.step fits) Filling.start).lines

/-- The lines that a paragraph contributes: a blank one contributes an empty line. -/
def paragraphLines (fits : Nat → Bool) (paragraph : List Char) : List (List Char) :=
  if allBlank paragraph then [[]] else fillParagraph fits paragraph

/-- Fills every paragraph of a text. -/
def wrapText (fits : Nat → Bool) (cs : List Char) : List Char :=
  joinLines ((splitLines cs).flatMap (paragraphLines fits))

end Blockscribe.Text
