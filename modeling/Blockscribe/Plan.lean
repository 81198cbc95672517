/-
Plans: how the code of one block is put together.

* `Plan`: a computation that asks its surroundings for expressions, statements, identifiers and
  definitions. It is data, so a law about all handlers is proved by induction on plans.
* `Plan.bind`, and the monad it makes: one plan after another; the monad laws are proved.
* `Outcome`: what a handler makes of a block.
* `Site`: what a handler may look at besides the face of its block.
-/
import Blockscribe.Block
import Blockscribe.Dialect.Basic
import Blockscribe.Log
import Blockscribe.Rank

namespace Blockscribe

/-- A computation that asks its surroundings for the parts of a block's code. -/
inductive Plan (α : Type) : Type
  /-- Ends with a result. -/
  | done (result : α)
  /-- Ends with a fault. -/
  | fail (fault : Fault)
  /-- Asks for the expression in a socket, bound tightly enough; empty sockets give the default. -/
  | expression (socket : String) (required : Grade) (default : String) (next : String → Plan α)
  /-- Asks for the statements in a socket, indented by one level. -/
  | statements (socket : String) (next : String → Plan α)
  /-- Asks for the identifier of a name. -/
  | identifier (name : String) (kind : NameKind) (next : String → Plan α)
  /-- Asks for an identifier of its own. -/
  | fresh (hint : String) (kind : NameKind) (next : String → Plan α)
  /-- Asks for the identifier of a helper routine. -/
  | helper (key : String) (lines : List String) (next : String → Plan α)
  /-- Writes a definition. -/
  | define (key text : String) (next : Plan α)
  /-- Asks for code with the block's comments before it and the following statements after it. -/
  | surround (code : String) (next : String → Plan α)

namespace Plan

variable {α β γ : Type}

/-- Goes on with another plan. -/
def bind : Plan α → (α → Plan β) → Plan β
  | done a, f => f a
  | fail e, _ => fail e
  | expression s r d k, f => expression s r d fun t => (k t).bind f
  | statements s k, f => statements s fun t => (k t).bind f
  | identifier n i k, f => identifier n i fun t => (k t).bind f
  | fresh h i k, f => fresh h i fun t => (k t).bind f
  | helper key ls k, f => helper key ls fun t => (k t).bind f
  | define key t k, f => define key t (k.bind f)
  | surround c k, f => surround c fun t => (k t).bind f

instance : Monad Plan where
  pure := done
  bind := bind

/-- Ending with a result and going on is going on at once. -/
theorem done_bind (a : α) (f : α → Plan β) : (done a).bind f = f a := rfl

/-- Going on by ending changes nothing. -/
theorem bind_done (p : Plan α) : p.bind done = p := by
  induction p with
  | done => rfl
  | fail => rfl
  | expression s r d k ih => simp [bind, ih]
  | statements s k ih => simp [bind, ih]
  | identifier n i k ih => simp [bind, ih]
  | fresh h i k ih => simp [bind, ih]
  | helper key ls k ih => simp [bind, ih]
  | define key t k ih => simp [bind, ih]
  | surround c k ih => simp [bind, ih]

/-- Plans that follow each other may be grouped either way. -/
theorem bind_assoc (p : Plan α) (f : α → Plan β) (g : β → Plan γ) :
    (p.bind f).bind g = p.bind fun a => (f a).bind g := by
  induction p with
  | done => rfl
  | fail => rfl
  | expression s r d k ih => simp [bind, ih]
  | statements s k ih => simp [bind, ih]
  | identifier n i k ih => simp [bind, ih]
  | fresh h i k ih => simp [bind, ih]
  | helper key ls k ih => simp [bind, ih]
  | define key t k ih => simp [bind, ih]
  | surround c k ih => simp [bind, ih]

/-- The expression in a socket. -/
def expr (socket : String) (required : Rank) (default : String) : Plan String :=
  expression socket (.rank required) default done

/-- The statements in a socket. -/
def body (socket : String) : Plan String := statements socket done

/-- The identifier of a variable. -/
def variableNamed (name : String) : Plan String := identifier name .variable done

/-- The identifier of a procedure. -/
def procedureNamed (name : String) : Plan String := identifier name .procedure done

/-- A variable of its own. -/
def temporary (hint : String) : Plan String := fresh hint .variable done

/-- The identifier of a helper routine. -/
def routine (key : String) (lines : List String) : Plan String := helper key lines done

/-- Writes a definition. -/
def writeDefinition (key text : String) : Plan Unit := define key text (done ())

/-- Code with the block's comments and the following statements. -/
def withSurroundings (code : String) : Plan String := surround code done

/-- Ends with a report about a combination of field values. -/
def refuse (type operation : String) (fields : Entries) : Plan α :=
  fail (.combination type operation fields)

end Plan

/-- What a handler makes of a block: an expression with its rank, statements, nothing inline, or a
value of a kind that is no code. -/
inductive Outcome
  | value (code : String) (grade : Grade)
  | statement (code : String)
  | nothing
  | other (kindName : String)

/-- An expression of a rank. -/
def Outcome.expr (code : String) (rank : Rank) : Outcome := .value code (.rank rank)

/-- What a handler may look at besides the face of its block. -/
structure Site where
  dialect : Dialect
  indent : String
  oneBased : Bool
  declared : List String

namespace Site

/-- A body without statements, indented by one level. -/
def emptyBody (s : Site) : String := s.indent ++ s.dialect.passKeyword ++ "\n"

/-- Statements, or the empty statement if there are none. -/
def bodyOr (s : Site) (code : String) : String := if code = "" then s.emptyBody else code

end Site

/-- Writes the code of the blocks of one type. -/
abbrev Handler := Site → Face → Plan Outcome

end Blockscribe
