/-
Handlers of procedure blocks.

A definition of a procedure emits nothing where it stands; its code, comments included, becomes a
definition of the program.

* `Procedures.parameters`: the parameters that a block lists.
* `Procedures.table`: the handlers by block type; `Procedures.definers` are the types that define
  procedures.
-/
import Blockscribe.Handler.Texts
import Blockscribe.Text.Lowercase

namespace Blockscribe.Handler.Procedures

/-- What a value lists: the items of a list, the characters of a text, the keys of a record. -/
def items : Value → Except Fault (List Value)
  | .list vs => .ok vs
  | .text s => .ok (s.toList.map fun c => .text (String.singleton c))
  | .record entries => .ok (entries.map fun e => .text e.1)
  | v => .error (.misuse v .sequence)

/-- The parameters that a block lists. -/
def parameters (face : Face) : Except Fault (List Value) :=
  items ((face.mutation.get? "params").getD (.list []))

/-- A name without regard to letter case. -/
def folded (name : String) : List Char := Text.lowercase name.toList

/-- Values as names. -/
def asNames : List Value → Except Fault (List String)
  | [] => .ok []
  | .text s :: rest => (asNames rest).map (s :: ·)
  | v :: _ => .error (.noMember v.kindName "lower")

/-- A result of something that may fail, inside a plan. -/
def require {α : Type} : Except Fault α → Plan α
  | .ok a => pure a
  | .error fault => Plan.fail fault

/-- The identifiers of the program's variables that are no parameters, in order. -/
def sharedVariables (site : Site) (names : List String) : Plan (List String) :=
  (site.declared.filter fun v => !(names.map folded).contains (folded v)).mapM
    Plan.variableNamed

/-- The line that binds the program's variables inside a procedure. -/
def bindingLine (site : Site) (identifiers : List String) : String :=
  if identifiers.isEmpty then ""
  else site.indent ++ "global " ++ ", ".intercalate identifiers ++ "\n"

/-- The end of a procedure: its return statement, or the empty statement if it has no other. -/
def tail (site : Site) (branch result : String) : String :=
  if result ≠ "" then branch ++ site.indent ++ "return " ++ result ++ "\n" else site.bodyOr branch

/-- Defines a procedure. -/
def definition : Handler := fun site face => do
  let names ← require ((parameters face).bind asNames)
  let shared ← sharedVariables site names
  let identifier ← Plan.procedureNamed (← Texts.nameField face "NAME" "define procedure")
  let branch ← Plan.body "STACK"
  let result ← Plan.expr "RETURN" .none ""
  let arguments ← names.mapM Plan.variableNamed
  let code ← Plan.withSurroundings
    ("def " ++ identifier ++ "(" ++ ", ".intercalate arguments ++ "):\n" ++
      bindingLine site shared ++ tail site branch result)
  Plan.writeDefinition ("%" ++ identifier) code
  return .nothing

/-- The call of a procedure. -/
def callCode (face : Face) : Plan String := do
  let identifier ← Plan.procedureNamed (← Texts.nameField face "NAME" "call procedure")
  let parameters ← require (parameters face)
  let arguments ← Lists.operands "ARG" "None" parameters.length
  return identifier ++ "(" ++ ", ".intercalate arguments ++ ")"

/-- The call of a procedure for its result. -/
def call : Handler := fun _ face => return .expr (← callCode face) .functionCall

/-- The call of a procedure as a statement. -/
def callStatement : Handler := fun _ face => return .statement ((← callCode face) ++ "\n")

/-- The handlers of procedure blocks. -/
def table : List (String × Handler) :=
  [("procedures_defreturn", definition), ("procedures_defnoreturn", definition),
    ("procedures_callreturn", call), ("procedures_callnoreturn", callStatement)]

/-- The block types that define procedures. -/
def definers : List String := ["procedures_defreturn", "procedures_defnoreturn"]

end Blockscribe.Handler.Procedures
