/-
Texts as sequences of lines. A line ends at a line feed and at nothing else.

* `splitLines`, `joinLines`: the lines of a text, and back; `joinLines_splitLines` says that nothing
  is lost on the way.
* `leadLines`: puts a lead in front of every line. A line feed that ends the text starts no new
  line, so it is not followed by a lead.
-/
namespace Blockscribe.Text

/-- The lines of a text; there is always at least one. -/
def splitLines : List Char → List (List Char)
  | [] => [[]]
  | c :: rest =>
    if c = '\n' then [] :: splitLines rest
    else
      match splitLines rest with
      | [] => [[c]]
      | line :: more => (c :: line) :: more

/-- Lines put back together with line feeds between them. -/
def joinLines : List (List Char) → List Char
  | [] => []
  | [line] => line
  | line :: more => line ++ '\n' :: joinLines more

/-- A text has at least one line. -/
theorem splitLines_ne_nil (cs : List Char) : splitLines cs ≠ [] := by
  cases cs with
  | nil => simp [splitLines]
  | cons c rest =>
    unfold splitLines
    split
    · simp
    · split <;> simp

/-- Joining the lines of a text gives the text back. -/
theorem joinLines_splitLines (cs : List Char) : joinLines (splitLines cs) = cs := by
  induction cs with
  | nil => rfl
  | cons c rest ih =>
    by_cases hc : c = '\n'
    · obtain ⟨line, more, h⟩ := List.exists_cons_of_ne_nil (splitLines_ne_nil rest)
      simp only [splitLines, hc, if_true, h, joinLines] at ih ⊢
      simp [ih]
    · obtain ⟨line, more, h⟩ := List.exists_cons_of_ne_nil (splitLines_ne_nil rest)
      simp only [splitLines, hc, if_false, h] at ih ⊢
      cases more with
      | nil => simpa [joinLines] using ih
      | cons l ls => simpa [joinLines] using ih

/-- Puts `lead` after every line feed but one that ends the text. -/
def leadAfterBreaks (lead : List Char) : List Char → List Char
  | [] => []
  | c :: rest =>
    if c = '\n' ∧ rest ≠ [] then c :: (lead ++ leadAfterBreaks lead rest)
    else c :: leadAfterBreaks lead rest

/-- Puts `lead` in front of every line of a text. -/
def leadLines (lead cs : List Char) : List Char := lead ++ leadAfterBreaks lead cs

end Blockscribe.Text

namespace Blockscribe

/-- Puts `lead` in front of every line of `text`; a line feed that ends the text starts no line. -/
def leadLines (lead text : String) : String :=
  String.ofList (Text.leadLines lead.toList text.toList)

/-- The two forms of leading agree. -/
theorem toList_leadLines (lead text : String) :
    (leadLines lead text).toList = Text.leadLines lead.toList text.toList := by
  simp [leadLines]

end Blockscribe
