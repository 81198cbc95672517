/-
Replacing parts of a text.

* `replaceAll`: every occurrence of a pattern replaced, read from the left and without overlap.
* `replaceAll_of_not_occurs`: a text without the pattern stays as it is.
* `reindentLine`: the pairs of spaces that begin a line replaced by a unit of indentation each.
* `reindentLine_pair`: for a unit of two spaces the line stays as it is.
-/
import Blockscribe.Text.Lines

namespace Blockscribe.Text

/-- Replaces occurrences of `pattern`, after dropping the next `skip` characters. -/
def replaceFrom (pattern replacement : List Char) : Nat → List Char → List Char
  | _, [] => []
  | skip + 1, _ :: rest => replaceFrom pattern replacement skip rest
  | 0, c :: rest =>
    if pattern.isPrefixOf (c :: rest) then
      replacement ++ replaceFrom pattern replacement (pattern.length - 1) rest
    else c :: replaceFrom pattern replacement 0 rest

/-- Replaces every occurrence of a nonempty pattern. -/
def replaceAll (pattern replacement cs : List Char) : List Char :=
  replaceFrom pattern replacement 0 cs

/-- A text in which the pattern does not occur stays as it is. -/
theorem replaceAll_of_not_occurs {pattern replacement cs : List Char}
    (h : ∀ k, pattern.isPrefixOf (cs.drop k) = false) :
    replaceAll pattern replacement cs = cs := by
  unfold replaceAll
  induction cs with
  | nil => rfl
  | cons c rest ih =>
    have h0 := h 0
    simp only [List.drop_zero] at h0
    simp only [replaceFrom, h0, Bool.false_eq_true, if_false]
    rw [ih fun k => by simpa using h (k + 1)]

/-- Replaces the pairs of spaces at the start of a line by `unit` each. -/
def reindentLine (unit : List Char) : List Char → List Char
  | ' ' :: ' ' :: rest => unit ++ reindentLine unit rest
  | cs => cs

/-- For a unit of two spaces a line stays as it is. -/
theorem reindentLine_pair (cs : List Char) : reindentLine [' ', ' '] cs = cs := by
  generalize hu : [' ', ' '] = unit
  fun_induction reindentLine unit cs with
  | case1 rest ih => rw [ih, ← hu]; rfl
  | case2 => rfl

/-- Replaces the pairs of spaces at the start of every line by `unit` each. -/
def reindent (unit cs : List Char) : List Char :=
  joinLines ((splitLines cs).map (reindentLine unit))

/-- For a unit of two spaces a text stays as it is. -/
theorem reindent_pair (cs : List Char) : reindent [' ', ' '] cs = cs := by
  have : (splitLines cs).map (reindentLine [' ', ' ']) = splitLines cs := by
    rw [funext reindentLine_pair, List.map_id']
  rw [reindent, this, joinLines_splitLines]

end Blockscribe.Text
