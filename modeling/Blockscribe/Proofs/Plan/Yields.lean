/-
Which results a plan can end with.

* `Plan.Yields`: the plan asks for expressions and names only, and whatever it is answered, a result
  that it ends with has a given property. It is kept when one plan follows another.
* `Yields.alike`: such a plan goes on like itself, whatever statements and surroundings are.
-/
import Blockscribe.Proofs.Run.Refine

namespace Blockscribe.Plan

variable {α β : Type} {P : α → Prop} {Q : β → Prop} {p : Plan α} {f : α → Plan β}

/-- The plan asks for no statements and no surroundings, and its results have the property,
whatever the answers are. Identifiers are answered by identifiers. -/
def Yields (P : α → Prop) : Plan α → Prop
  | done a => P a
  | fail _ => True
  | expression _ _ _ next => ∀ code, (next code).Yields P
  | statements _ _ => False
  | identifier _ _ next => ∀ id, isIdentifier id = true → (next id).Yields P
  | fresh _ _ next => ∀ id, (next id).Yields P
  | helper _ _ next => ∀ id, (next id).Yields P
  | define _ _ next => next.Yields P
  | surround _ _ => False

lemma yields_pure {a : α} (h : P a) : (pure a : Plan α).Yields P := h

lemma yields_refuse {type operation : String} {fields : Entries} :
    (refuse type operation fields : Plan α).Yields P := trivial

lemma yields_fail {fault : Fault} : (fail fault : Plan α).Yields P := trivial

lemma Yields.bind (hp : p.Yields P) (hf : ∀ a, P a → (f a).Yields Q) : (p >>= f).Yields Q := by
  induction p with
  | done a => exact hf a hp
  | fail fault => exact trivial
  | expression socket required default next ih => exact fun code => ih code (hp code)
  | statements socket next => exact hp
  | identifier name kind next ih => exact fun id hid => ih id (hp id hid)
  | fresh hint kind next ih => exact fun id => ih id (hp id)
  | helper key lines next ih => exact fun id => ih id (hp id)
  | define key text next ih => exact ih hp
  | surround code next => exact hp

/-- What is known of the results of the first plan need not matter. -/
lemma Yields.bind_any (hp : p.Yields fun _ => True) (hf : ∀ a, (f a).Yields Q) :
    (p >>= f).Yields Q :=
  hp.bind fun a _ => hf a

lemma yields_expr (socket : String) (required : Rank) (default : String) :
    (expr socket required default).Yields fun _ => True := fun _ => trivial

lemma yields_variableNamed (name : String) :
    (variableNamed name).Yields (isIdentifier · = true) := fun _ h => h

lemma yields_procedureNamed (name : String) : (procedureNamed name).Yields fun _ => True :=
  fun _ _ => trivial

lemma yields_temporary (hint : String) : (temporary hint).Yields fun _ => True := fun _ => trivial

lemma yields_routine (key : String) (lines : List String) :
    (routine key lines).Yields fun _ => True := fun _ => trivial

lemma yields_writeDefinition (key text : String) :
    (writeDefinition key text).Yields fun _ => True := trivial

lemma yields_mapM {f : α → Plan β} {l : List α} (hf : ∀ a ∈ l, (f a).Yields fun _ => True) :
    (l.mapM f).Yields fun _ => True := by
  induction l with
  | nil => exact yields_pure trivial
  | cons a rest ih =>
      rw [List.mapM_cons]
      refine (hf a List.mem_cons_self).bind_any fun b => ?_
      exact (ih fun x hx => hf x (List.mem_cons_of_mem a hx)).bind_any fun bs => yields_pure trivial

/-- A plan that asks for expressions and names only goes on like itself. -/
lemma Yields.alike {S U : String → String → Prop} {R : α → α → Prop}
    (hp : p.Yields fun a => R a a) : Alike S U R p p := by
  induction p with
  | done a => exact .done hp
  | fail fault => exact .fail
  | expression socket required default next ih => exact .expression fun code => ih code (hp code)
  | statements socket next => exact hp.elim
  | identifier name kind next ih => exact .identifier fun id hid => ih id (hp id hid)
  | fresh hint kind next ih => exact .fresh fun id => ih id (hp id)
  | helper key lines next ih => exact .helper fun id => ih id (hp id)
  | define key text next ih => exact .define (ih hp)
  | surround code next => exact hp.elim

end Blockscribe.Plan
