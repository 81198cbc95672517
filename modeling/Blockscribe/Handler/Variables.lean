/-
Handlers of variable and number blocks.

* `Value.toDouble`: the number that a value stands for.
* `Variables.table`: the handlers by block type.
-/
import Blockscribe.Handler.Texts

namespace Blockscribe

/-- The number that a value stands for: numbers, truth values, and texts that spell a number. -/
def Value.toDouble : Value → Except Fault Double
  | .bool b => .ok (Double.ofInt (if b then 1 else 0))
  | .int i =>
    match Double.ofInt i with
    | .infinite _ => .error .tooLarge
    | x => .ok x
  | .real x => .ok x
  | .text s =>
    match Number.readDouble? s with
    | some x => .ok x
    | none => .error (.flaw (.notANumber s))
  | v => .error (.misuse v .number)

namespace Handler.Variables

/-- An arithmetic operator: its text, the rank of the result, and the ranks that the operands must
have. -/
structure Operator where
  text : String
  rank : Rank
  left : Rank
  right : Rank

/-- The arithmetic operators by field value. Subtraction and division group to the left, powers to
the right. -/
def operators : List (String × Operator) :=
  [("ADD", ⟨" + ", .additive, .additive, .additive⟩),
    ("MINUS", ⟨" - ", .additive, .additive, .multiplicative⟩),
    ("MULTIPLY", ⟨" * ", .multiplicative, .multiplicative, .multiplicative⟩),
    ("DIVIDE", ⟨" / ", .multiplicative, .multiplicative, .unarySign⟩),
    ("POWER", ⟨" ** ", .exponentiation, .functionCall, .exponentiation⟩)]

/-- The value of a variable. -/
def get : Handler := fun _ face => do
  let name ← Plan.variableNamed (← Texts.nameField face "VAR" "read variable")
  return .expr name .atomic

/-- An assignment to a variable. -/
def set : Handler := fun _ face => do
  let value ← Plan.expr "VALUE" .none "0"
  let name ← Plan.variableNamed (← Texts.nameField face "VAR" "set variable")
  return .statement (name ++ " = " ++ value ++ "\n")

/-- A number as an expression. -/
def numberOutcome (x : Double) : Outcome :=
  match x with
  | .nan => .expr "float(\"nan\")" .functionCall
  | .infinite false => .expr "float(\"inf\")" .functionCall
  | .infinite true => .expr "-float(\"inf\")" .unarySign
  | _ => .expr x.plainText (if x.isNegative then .unarySign else .atomic)

/-- A number that is typed into the block. -/
def number : Handler := fun _ face => do
  match (face.fieldOr "NUM" (.int 0)).toDouble with
  | .ok x => return numberOutcome x
  | .error .tooLarge => Plan.fail .tooLarge
  | .error _ => Plan.refuse face.type "render number" [("NUM", face.field "NUM")]

/-- An arithmetic operation on two operands. -/
def arithmetic : Handler := fun _ face => do
  match face.field "OP" with
  | .text op =>
    match operators.lookup op with
    | some operator =>
      let left ← Plan.expr "A" operator.left "0"
      let right ← Plan.expr "B" operator.right "0"
      return .expr (left ++ operator.text ++ right) operator.rank
    | none => Plan.refuse face.type "compute" [("OP", .text op)]
  | other =>
    if other.isKey then Plan.refuse face.type "compute" [("OP", other)]
    else Plan.fail (.misuse other .key)

/-- The handlers of variable and number blocks. -/
def table : List (String × Handler) :=
  [("variables_get", get), ("variables_set", set), ("math_number", number),
    ("math_arithmetic", arithmetic)]

end Handler.Variables

end Blockscribe
