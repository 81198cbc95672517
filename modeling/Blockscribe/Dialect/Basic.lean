/-
Target dialects: the statement-level forms of a generated program.

* `Template`: a text with one hole.
* `Dialect`: comments, the empty statement, output, declarations, the entry point and the reserved
  words of a target.
* `Dialect.byName`: looks a dialect up by its name in any letter case.
* `Dialect.byName_name`: every dialect is found under its own name.
-/
import Blockscribe.Dialect.Reserved
import Blockscribe.Fault
import Blockscribe.Text.Lowercase

namespace Blockscribe

/-- A text with one named hole. -/
structure Template where
  before : String
  hole : String
  after : String

namespace Template

/-- The text with its hole filled. -/
def fill (t : Template) (text : String) : String := t.before ++ text ++ t.after

/-- The text with its hole shown by its name in braces. -/
def text (t : Template) : String := t.fill ("\x7b" ++ t.hole ++ "\x7d")

end Template

/-- The statement-level forms of a target. -/
structure Dialect where
  name : String
  reserved : List String
  lineComment : String
  docOpen : String
  docClose : String
  passKeyword : String
  entryOpen : String
  entryClose : String
  output : Template
  declaration : Template
  /-- Whether an entry point without statements needs an empty one. -/
  requiresBody : Bool
  /-- How an entry point names the program's variables, if it has a scope of its own. -/
  binding : Option Template

namespace Dialect

/-- Braces around a bare entry point; everything shares one scope. -/
def cplus : Dialect where
  name := "cplus"
  reserved := cplusWords
  lineComment := "# "
  docOpen := "\"\"\""
  docClose := "\"\"\""
  passKeyword := "pass"
  entryOpen := "main() \x7b\n"
  entryClose := "\x7d"
  output := ⟨"cout << ", "msg", ";"⟩
  declaration := ⟨"", "name", " = None"⟩
  requiresBody := false
  binding := none

/-- An entry point that is a function of its own, called at the end of the program. -/
def python : Dialect where
  name := "python"
  reserved := pythonWords
  lineComment := "# "
  docOpen := "\"\"\""
  docClose := "\"\"\""
  passKeyword := "pass"
  entryOpen := "def main():\n"
  entryClose := "\n\nif __name__ == \"__main__\":\n  main()\n"
  output := ⟨"print(", "msg", ")"⟩
  declaration := ⟨"", "name", " = None"⟩
  requiresBody := true
  binding := some ⟨"global ", "names", ""⟩

/-- The dialects, sorted by name. -/
def all : List Dialect := [cplus, python]

/-- The names of the dialects. -/
def names : List String := all.map Dialect.name

/-- The dialect of a name in any letter case. -/
def byName (name : String) : Except Fault Dialect :=
  match all.find? fun d => d.name.toList == Text.lowercase name.toList with
  | some d => .ok d
  | none => .error (.failure (.settings (.unknownDialect name names)))

/-- The dialect that a setting names. -/
def ofValue : Value → Except Fault Dialect
  | .text name => byName name
  | v => .error (.noMember v.kindName "lower")

/-- A statement that puts a message out. -/
def outputStatement (d : Dialect) (message : String) : String := d.output.fill message ++ "\n"

/-- The declaration of a variable. -/
def declare (d : Dialect) (name : String) : String := d.declaration.fill name

/-- The line that binds the program's variables inside its entry point, if there are any and the
entry point has a scope of its own. -/
def bindingLine (d : Dialect) (declared : List String) : String :=
  match d.binding with
  | some t => if declared.isEmpty then "" else t.fill (", ".intercalate declared) ++ "\n"
  | none => ""

/-- A comment that documents a procedure. -/
def docComment (d : Dialect) (comment : String) : String :=
  d.docOpen ++ comment ++ "\n" ++ d.docClose ++ "\n"

/-- Every dialect is found under its own name. -/
theorem byName_name {d : Dialect} (h : d ∈ all) : byName d.name = .ok d := by
  simp only [all, List.mem_cons, List.not_mem_nil, or_false] at h
  rcases h with rfl | rfl <;> rfl

end Dialect

end Blockscribe
