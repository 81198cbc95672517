/-
Trees of expression blocks.

* `Tree`: numbers, truth values, null, variables, and arithmetic and logical operations on them; a
  socket in which nothing is plugged is a `missing` operand.
* `Tree.expr`: the expression that a tree stands for, with the defaults of missing operands and
  negative numbers as a sign in front of a numeral.
* `Workspace.Operand`: what is plugged into a socket of a block.
* `Workspace.Stands`: the tree of a block, by its type, its fields and its operands.
-/
import Blockscribe.Handler.Variables
import Blockscribe.Proofs.Grammar.Parse
import Blockscribe.Proofs.Number.Numeral
import Blockscribe.Workspace

namespace Blockscribe

open Grammar (Expr)

/-- The arithmetic operations. -/
inductive Arithmetic
  | add
  | subtract
  | multiply
  | divide
  | power

namespace Arithmetic

/-- How a block names the operation. -/
def key : Arithmetic → String
  | add => "ADD"
  | subtract => "MINUS"
  | multiply => "MULTIPLY"
  | divide => "DIVIDE"
  | power => "POWER"

/-- The operator of the operation. -/
def operator : Arithmetic → Grammar.Operator
  | add => .add
  | subtract => .subtract
  | multiply => .multiply
  | divide => .divide
  | power => .power

end Arithmetic

/-- The logical operations with two operands. -/
inductive Junction
  | and
  | or

namespace Junction

/-- How a block names the operation. -/
def key : Junction → String
  | and => "AND"
  | or => "OR"

/-- The operator of the operation. -/
def operator : Junction → Grammar.Operator
  | and => .and
  | or => .or

/-- The operand that does not change the result. -/
def neutral : Junction → Grammar.Constant
  | and => .true
  | or => .false

end Junction

/-- A tree of expression blocks. -/
inductive Tree
  /-- An operand of which nothing is plugged in. -/
  | missing
  | number (x : Double)
  | boolean (value : Bool)
  | null
  | named (name : String)
  | arithmetic (op : Arithmetic) (left right : Tree)
  | junction (op : Junction) (left right : Tree)
  | negation (operand : Tree)

namespace Tree

/-- Whether nothing is plugged in. -/
def isMissing : Tree → Bool
  | missing => true
  | _ => false

/-- The expression of an operand; a missing one is a default. -/
def orElse (t : Tree) (default x : Expr) : Expr := if t.isMissing then default else x

/-- The expression of a number, negative ones with a sign in front of a numeral. -/
def numberExpr (x : Double) : Expr :=
  if x.isNegative then .negative (.number x.magnitude.plainText)
  else .number x.magnitude.plainText

/-- The expression that a tree stands for, under identifiers for the variables. If both operands of
a logical operation are missing they are false; a single one does not change the result. -/
def expr (naming : String → String) : Tree → Expr
  | missing => .constant .none
  | number x => numberExpr x
  | boolean value => .constant (if value then .true else .false)
  | null => .constant .none
  | named name => .name (naming name)
  | arithmetic op left right =>
      .binary op.operator (left.orElse (.number "0") (left.expr naming))
        (right.orElse (.number "0") (right.expr naming))
  | junction op left right =>
      if left.isMissing && right.isMissing then
        .binary op.operator (.constant .false) (.constant .false)
      else
        .binary op.operator (left.orElse (.constant op.neutral) (left.expr naming))
          (right.orElse (.constant op.neutral) (right.expr naming))
  | negation operand => .negation (operand.orElse (.constant .true) (operand.expr naming))

end Tree

/-- An enabled block of a type, after which nothing follows. -/
structure Block.IsLone (b : Block) (type : String) : Prop where
  type_eq : b.type = type
  enabled : b.disabled = false
  last : b.next = none

/-- A number that is neither infinite nor not-a-number. -/
def Double.IsFinite (x : Double) : Prop := ∃ negative m e, x = finite negative m e

namespace Workspace

/-- What is plugged into a socket of a block: nothing, or the block in a value socket. -/
def Operand (w : Workspace) (b : Block) (name : String) : Option Block → Prop
  | none => ∀ s, b.socket? name = some s → s.target = none
  | some c => ∃ s, b.socket? name = some s ∧ s.kind = .value ∧ s.target = some c.id ∧
      w.find? c.id = some c

/-- The tree of a block. -/
inductive Stands (w : Workspace) : Tree → Option Block → Prop
  | missing : Stands w .missing none
  | number {b : Block} {x : Double} : b.IsLone "math_number" →
      (b.face.fieldOr "NUM" (.int 0)).toDouble = .ok x → x.IsFinite →
      Stands w (.number x) (some b)
  | boolean {b : Block} {value : Bool} : b.IsLone "logic_boolean" →
      b.face.field "BOOL" = .text (if value then "TRUE" else "FALSE") →
      Stands w (.boolean value) (some b)
  | null {b : Block} : b.IsLone "logic_null" → Stands w .null (some b)
  | named {b : Block} {name : String} : b.IsLone "variables_get" →
      b.face.field "VAR" = .text name → name ≠ "" → Stands w (.named name) (some b)
  | arithmetic {b : Block} {op : Arithmetic} {left right : Tree} {l r : Option Block} :
      b.IsLone "math_arithmetic" → b.face.field "OP" = .text op.key →
      w.Operand b "A" l → Stands w left l → w.Operand b "B" r → Stands w right r →
      Stands w (.arithmetic op left right) (some b)
  | junction {b : Block} {op : Junction} {left right : Tree} {l r : Option Block} :
      b.IsLone "logic_operation" → b.face.field "OP" = .text op.key →
      w.Operand b "A" l → Stands w left l → w.Operand b "B" r → Stands w right r →
      Stands w (.junction op left right) (some b)
  | negation {b : Block} {operand : Tree} {c : Option Block} : b.IsLone "logic_negate" →
      w.Operand b "BOOL" c → Stands w operand c → Stands w (.negation operand) (some b)

variable {w : Workspace}

/-- What is plugged into a value socket is an operand. -/
lemma Operand.of_plugged {b c : Block} {name : String} {id : BlockId}
    (hs : b.socket? name = some ⟨name, .value, some id⟩) (hc : w.find? id = some c) :
    w.Operand b name (some c) := by
  have hid : c.id = id := by simpa using List.find?_some hc
  exact ⟨_, hs, rfl, by rw [hid], by rw [hid, hc]⟩

/-- Without a socket there is no operand. -/
lemma Operand.of_absent {b : Block} {name : String} (hs : b.socket? name = none) :
    w.Operand b name none := by
  intro s h
  exact nomatch hs.symm.trans h

/-- An operand is a block of the workspace. -/
lemma Operand.mem {b c : Block} {name : String} {target : Option Block}
    (h : w.Operand b name target) (hc : target = some c) : c ∈ w.blocks := by
  subst hc
  obtain ⟨_, _, _, _, hfind⟩ := h
  exact List.mem_of_find?_eq_some hfind

/-- A missing operand is an empty socket, and only that. -/
lemma Stands.isMissing_iff {t : Tree} {c : Option Block} (h : w.Stands t c) :
    t.isMissing = true ↔ c = none := by
  cases h <;> simp [Tree.isMissing]

/-- A block of a tree is enabled and nothing follows after it. -/
lemma Stands.lone {t : Tree} {b : Block} (h : w.Stands t (some b)) :
    b.disabled = false ∧ b.next = none := by
  cases h with
  | number hb | boolean hb | null hb | named hb | arithmetic hb | junction hb | negation hb =>
      exact ⟨hb.enabled, hb.last⟩

end Workspace

end Blockscribe
