/-
Handlers given as data.

* `Recipe`: definitions to write, and what to answer.
* `Recipe.handler`: the handler that follows a recipe.
-/
import Blockscribe.Plan

namespace Blockscribe

/-- What a handler answers. -/
inductive Answer
  /-- An expression with the grade that it reports. -/
  | value (code : String) (grade : Grade)
  /-- Statements. -/
  | statement (code : String)
  /-- Nothing inline. -/
  | nothing
  /-- Any value in the place of code. -/
  | raw (v : Value)
  /-- The expression in a socket, as an expression or as a line of its own. -/
  | holder (socket : String) (required : Grade) (default : String) (grade : Option Grade)
  /-- The statements in a socket between two lines. -/
  | body (socket : String)

/-- The definitions that a handler writes first, and what it answers. -/
structure Recipe where
  definitions : List (String × String)
  answer : Answer

/-- The outcome for a value in the place of code: texts are statements and null is nothing. -/
def Outcome.ofValue : Value → Outcome
  | .text s => .statement s
  | .null => .nothing
  | v => .other v.kindName

/-- What an answer makes of a block. -/
def Answer.plan (site : Site) : Answer → Plan Outcome
  | .value code grade => return .value code grade
  | .statement code => return .statement code
  | .nothing => return .nothing
  | .raw v => return .ofValue v
  | .holder socket required default grade => do
    let code ← Plan.expression socket required default Plan.done
    match grade with
    | some g => return .value code g
    | none => return .statement (code ++ "\n")
  | .body socket => do
    let code ← Plan.body socket
    return .statement ("begin\n" ++ site.bodyOr code ++ "end\n")

/-- The handler that follows a recipe. -/
def Recipe.handler (r : Recipe) : Handler := fun site _ => do
  for (key, text) in r.definitions do
    Plan.writeDefinition key text
  r.answer.plan site

end Blockscribe
