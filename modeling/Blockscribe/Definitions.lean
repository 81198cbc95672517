/-
The definitions of a program: imports, helper routines, procedures and declarations, by key.

* `Definitions.put`: writes a definition; a key that is already there keeps its place.
* `Definitions.provide`: the identifier of a helper routine, which is defined on first request.
* `Definitions.helperText`: the text under which it is defined; `helperText_eq` says that the
  indentation in which helpers are written needs no case of its own.
* `get?_put`: the last write under a key wins, and other keys are not touched.
* `provide_eq_of_known`, `provide_eq_of_new`: the two ways in which a request for a helper routine ends.
-/
import Blockscribe.Assoc
import Blockscribe.Name.Table
import Blockscribe.Text.Replace

namespace Blockscribe

/-- Texts by key in the order of their first write, and the identifiers of the helper routines. -/
structure Definitions where
  entries : List (String × String)
  helpers : List (String × String)

namespace Definitions

/-- No definitions. -/
def empty : Definitions := ⟨[], []⟩

/-- Writes a definition. -/
def put (d : Definitions) (key text : String) : Definitions :=
  { d with entries := Assoc.put d.entries key text }

/-- The definition under a key. -/
def get? (d : Definitions) (key : String) : Option String := d.entries.lookup key

/-- The identifier of a helper routine that has been requested. -/
def helper? (d : Definitions) (key : String) : Option String := d.helpers.lookup key

/-- How many definitions there are. -/
def size (d : Definitions) : Nat := d.entries.length

/-- What stands in a helper's lines where its own identifier belongs. -/
def ownName : String := "\x7bleCUI8hutHZI4480Dc\x7d"

/-- The unit of indentation in which helpers are written. -/
def writtenIndent : String := "  "

/-- The lines of a helper routine with its identifier filled in. -/
def namedText (identifier : String) (lines : List String) : List Char :=
  Text.replaceAll ownName.toList identifier.toList (Text.joinLines (lines.map String.toList))

/-- The text of a helper routine: its lines with the identifier filled in and the indentation
changed to the program's, if that is another one. -/
def helperText (indent identifier : String) (lines : List String) : String :=
  String.ofList
    (if indent = writtenIndent then namedText identifier lines
    else Text.reindent indent.toList (namedText identifier lines))

/-- Changing the indentation to itself is leaving it alone. -/
theorem helperText_eq (indent identifier : String) (lines : List String) :
    helperText indent identifier lines =
      String.ofList (Text.reindent indent.toList (namedText identifier lines)) := by
  unfold helperText
  split
  · rename_i hindent
    have hpair : indent.toList = [' ', ' '] := by rw [hindent]; rfl
    rw [hpair, Text.reindent_pair]
  · rfl

/-- The identifier of a helper routine. The first request issues it and writes the definition;
later ones change nothing. The last component says whether this was the first. -/
def provide (d : Definitions) (names : NameTable) (indent key : String) (lines : List String) :
    String × NameTable × Definitions × Bool :=
  match d.helper? key with
  | some identifier => (identifier, names, d, false)
  | none =>
    let (identifier, names') := names.fresh key
    let d' : Definitions := { d with helpers := (key, identifier) :: d.helpers }
    (identifier, names', d'.put key (helperText indent identifier lines), true)

/-- The last write under a key wins, and other keys are not touched. -/
theorem get?_put (d : Definitions) (key name text : String) :
    (d.put key text).get? name = if name = key then some text else d.get? name :=
  Assoc.lookup_put d.entries key name text

/-- Writing a definition leaves the identifiers of the helper routines alone. -/
@[simp] theorem helper?_put (d : Definitions) (key text name : String) :
    (d.put key text).helper? name = d.helper? name := rfl

/-- A helper routine that gets an identifier is found, and the others are not touched. -/
theorem helper?_cons {d : Definitions} (key name identifier : String) :
    helper? ⟨d.entries, (key, identifier) :: d.helpers⟩ name =
      if name = key then some identifier else d.helper? name := by
  rw [helper?, List.lookup_cons]
  by_cases h : name = key
  · rw [if_pos h, beq_iff_eq.mpr h]
  · rw [if_neg h, beq_eq_false_iff_ne.mpr h]
    rfl

/-- A helper routine that is known is looked up. -/
theorem provide_eq_of_known {d : Definitions} {key identifier : String}
    (h : d.helper? key = some identifier) (names : NameTable) (indent : String)
    (lines : List String) : d.provide names indent key lines = (identifier, names, d, false) := by
  rw [provide, h]

/-- The first request issues the identifier and writes the text. -/
theorem provide_eq_of_new {d : Definitions} {key : String} (h : d.helper? key = none)
    (names : NameTable) (indent : String) (lines : List String) :
    d.provide names indent key lines = (names.choose key, (names.fresh key).2,
      put ⟨d.entries, (key, names.choose key) :: d.helpers⟩ key
        (helperText indent (names.choose key) lines), true) := by
  rw [provide, h]
  rfl

end Definitions

end Blockscribe
