/-
Handlers of logic and conditional blocks.

* `Logic.table`: the handlers by block type.
-/
import Blockscribe.Plan

namespace Blockscribe.Handler.Logic

/-- The comparison operators by field value. -/
def comparisons : List (String × String) :=
  [("EQ", "=="), ("NEQ", "!="), ("LT", "<"), ("LTE", "<="), ("GT", ">"), ("GTE", ">=")]

/-- The clause of the condition and the body with number `n`. -/
def clause (site : Site) (keyword : String) (n : Nat) : Plan String := do
  let condition ← Plan.expr ("IF" ++ toString n) .none "False"
  let branch ← Plan.body ("DO" ++ toString n)
  return keyword ++ " " ++ condition ++ ":\n" ++ site.bodyOr branch

/-- A conditional statement: the first condition, one clause for each further one, and the other
case if there is a socket for it. -/
def conditional : Handler := fun site face => do
  let first ← clause site "if" 0
  let further ← (List.range' 1 (face.numbered "IF" - 1)).mapM fun n => clause site "elif" n
  let code := first ++ String.join further
  if face.hasSocket "ELSE" then
    let branch ← Plan.body "ELSE"
    return .statement (code ++ "else:\n" ++ site.bodyOr branch)
  else return .statement code

/-- A comparison of two operands. -/
def compare : Handler := fun _ face => do
  match face.field "OP" with
  | .text op =>
    match comparisons.lookup op with
    | some operator =>
      let left ← Plan.expr "A" .relational "0"
      let right ← Plan.expr "B" .relational "0"
      return .expr (left ++ " " ++ operator ++ " " ++ right) .relational
    | none => Plan.refuse face.type "compare" [("OP", .text op)]
  | other =>
    if other.isKey then Plan.refuse face.type "compare" [("OP", other)]
    else Plan.fail (.misuse other .key)

/-- A conjunction or disjunction. A single missing operand must not change the result; two missing
operands are false. -/
def junction (operator default : String) (rank : Rank) : Plan Outcome := do
  let left ← Plan.expr "A" rank ""
  let right ← Plan.expr "B" rank ""
  if left = "" ∧ right = "" then return .expr ("False " ++ operator ++ " False") rank
  else
    return .expr
      ((if left = "" then default else left) ++ " " ++ operator ++ " " ++
        (if right = "" then default else right)) rank

/-- A conjunction or disjunction. -/
def operation : Handler := fun _ face => do
  let op := face.field "OP"
  if op.isText "AND" then junction "and" "True" .logicalAnd
  else if op.isText "OR" then junction "or" "False" .logicalOr
  else Plan.refuse face.type "combine conditions" [("OP", op)]

/-- A negation. -/
def negate : Handler := fun _ _ => do
  let operand ← Plan.expr "BOOL" .logicalNot "True"
  return .expr ("not " ++ operand) .logicalNot

/-- A truth value. -/
def boolean : Handler := fun _ face => do
  let value := face.field "BOOL"
  if value.isText "TRUE" then return .expr "True" .atomic
  else if value.isText "FALSE" then return .expr "False" .atomic
  else Plan.refuse face.type "render boolean" [("BOOL", value)]

/-- The value that stands for none. -/
def null : Handler := fun _ _ => return .expr "None" .atomic

/-- One of two expressions, by a condition. -/
def ternary : Handler := fun _ _ => do
  let condition ← Plan.expr "IF" .conditional "False"
  let first ← Plan.expr "THEN" .conditional "None"
  let second ← Plan.expr "ELSE" .conditional "None"
  return .expr (first ++ " if " ++ condition ++ " else " ++ second) .conditional

/-- The handlers of logic and conditional blocks. -/
def table : List (String × Handler) :=
  [("controls_if", conditional), ("logic_compare", compare), ("logic_operation", operation),
    ("logic_negate", negate), ("logic_boolean", boolean), ("logic_null", null),
    ("logic_ternary", ternary)]

end Blockscribe.Handler.Logic
