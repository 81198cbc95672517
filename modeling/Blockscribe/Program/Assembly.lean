/-
Assembling a program from its definitions and its body.

* `Program.imports`, `Program.routines`: the import lines among the definitions, and the rest.
* `Program.preamble`: both, imports first.
* `Program.entryPoint`: the body, indented inside the entry point of the dialect.
* `Program.finish`: the whole program.
* `mem_imports_or_routines`: every definition is in exactly one of the two lists.
-/
import Blockscribe.Program.Layout
import Blockscribe.Run
import Blockscribe.Style
import Blockscribe.Text.Lines

namespace Blockscribe

/-- The key under which the declarations of the program's variables stand. -/
def variablesKey : String := "variables"

namespace Program

/-- The import lines, in the order of their definition. -/
def imports (d : Definitions) : List String := (d.entries.map Prod.snd).filter isImport

/-- The other definitions, in the order of their definition. -/
def routines (d : Definitions) : List String :=
  (d.entries.map Prod.snd).filter fun text => !isImport text

/-- The definitions as they stand in front of the entry point. -/
def preamble (d : Definitions) : String :=
  collapse ("\n".intercalate (imports d) ++ "\n\n" ++ "\n\n".intercalate (routines d))

/-- The body of the entry point, given the identifiers of the program's variables. -/
def entryBody (style : Style) (declared : List String) (body : String) : String :=
  if body ≠ "" then leadLines style.indent (style.dialect.bindingLine declared ++ body)
  else if style.dialect.requiresBody then style.emptyBody
  else body

/-- The entry point around a body. -/
def entryPoint (style : Style) (declared : List String) (body : String) : Running String := do
  let identifiers ← if body ≠ "" then Running.namedAll declared else pure []
  return style.dialect.entryOpen ++ entryBody style identifiers body ++ style.dialect.entryClose

/-- The whole program. -/
def finish (style : Style) (declared : List String) (body : String) : Running String := do
  let definitions := preamble (← get).definitions
  let entry ← entryPoint style declared body
  return tidy (definitions ++ entry)

/-- Every definition is an import or another definition, and never both. -/
theorem mem_imports_or_routines {d : Definitions} {text : String}
    (h : text ∈ d.entries.map Prod.snd) :
    (text ∈ imports d ∧ text ∉ routines d) ∨ (text ∉ imports d ∧ text ∈ routines d) := by
  by_cases hi : isImport text = true
  · exact .inl ⟨List.mem_filter.2 ⟨h, hi⟩, fun hm => by simp [routines, hi] at hm⟩
  · simp only [Bool.not_eq_true] at hi
    exact .inr ⟨fun hm => by simp [imports, hi] at hm, List.mem_filter.2 ⟨h, by simp [hi]⟩⟩

end Program

namespace Run

/-- Opens a run: forgets what was there before and declares the program's variables. -/
def opened (r : Run) (dialect : Dialect) (declared : List String) : Run :=
  let (identifiers, r') := (r.reset true).namedAll declared
  r'.define variablesKey ("\n".intercalate (identifiers.map dialect.declare))

/-- Closes a run and forgets its identifiers and definitions. -/
def shut (r : Run) : Run := r.reset false

end Run

end Blockscribe
