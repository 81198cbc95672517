/-
Which faults a computation can end with.

* `Fault.IsRefusal`: the reports about blocks and the graph of the blocks.
* `Fault.Only`, `Running.Only`, `Plan.Only`: if the computation ends with a fault, the fault has a
  given property. Each is kept when one computation follows another.
* `LawfulMonad Plan`: plans that follow each other may be regrouped.
* `Plan.Only.run`: a plan that is carried out ends with no faults but its own and those of the
  services that answer it.
-/
import Mathlib.Tactic.Lemma
import Blockscribe.Render

namespace Blockscribe

variable {α β : Type} {P : Fault → Prop}

/-- A report about a block or about the graph of the blocks. -/
def Fault.IsRefusal : Fault → Prop
  | failure (.block ..) | failure (.combination ..) | failure (.missingHandler _)
  | failure (.workspace ..) => True
  | _ => False

/-! ### Results that may be faults -/

lemma bind_eq_ok {e : Except Fault α} {f : α → Except Fault β} {b : β}
    (h : (e >>= f) = .ok b) : ∃ a, e = .ok a ∧ f a = .ok b := by
  cases e with
  | error fault => exact nomatch h
  | ok a => exact ⟨a, rfl, h⟩

lemma forall_mem_of_mapM {f : α → Except Fault β} {P : β → Prop} {l : List α}
    (hf : ∀ a ∈ l, ∀ b, f a = .ok b → P b) {bs : List β} (h : l.mapM f = .ok bs) :
    ∀ b ∈ bs, P b := by
  induction l generalizing bs with
  | nil =>
      obtain rfl := Except.ok.inj h
      exact fun b hb => absurd hb List.not_mem_nil
  | cons a rest ih =>
      rw [List.mapM_cons] at h
      obtain ⟨b, hb, htail⟩ := bind_eq_ok h
      obtain ⟨more, hmore, hlist⟩ := bind_eq_ok htail
      obtain rfl := Except.ok.inj hlist
      refine List.forall_mem_cons.mpr ⟨hf a List.mem_cons_self b hb, ?_⟩
      exact ih (fun x hx => hf x (List.mem_cons_of_mem a hx)) hmore

namespace Fault

/-- If the result is a fault, it has the property. -/
def Only (P : Fault → Prop) (e : Except Fault α) : Prop := ∀ fault, e = .error fault → P fault

lemma only_ok (a : α) : Only P (.ok a) := fun _ h => nomatch h

lemma only_error_iff {fault : Fault} : Only P (.error fault : Except Fault α) ↔ P fault :=
  ⟨fun h => h fault rfl, fun h _ he => Except.error.inj he ▸ h⟩

lemma Only.mono {Q : Fault → Prop} {e : Except Fault α} (he : Only P e)
    (h : ∀ fault, P fault → Q fault) : Only Q e :=
  fun fault hfault => h fault (he fault hfault)

lemma Only.bind {e : Except Fault α} {f : α → Except Fault β} (he : Only P e)
    (hf : ∀ a, e = .ok a → Only P (f a)) : Only P (e >>= f) := by
  cases e with
  | error fault => exact only_error_iff.mpr (only_error_iff.mp he)
  | ok a => exact hf a rfl

lemma Only.map {e : Except Fault α} (he : Only P e) (f : α → β) : Only P (e.map f) := by
  cases e with
  | error fault => exact only_error_iff.mpr (only_error_iff.mp he)
  | ok a => exact only_ok _

lemma only_mapM {f : α → Except Fault β} {l : List α} (hf : ∀ a ∈ l, Only P (f a)) :
    Only P (l.mapM f) := by
  induction l with
  | nil => exact only_ok _
  | cons a rest ih =>
      rw [List.mapM_cons]
      refine (hf a List.mem_cons_self).bind fun b _ => ?_
      exact (ih fun x hx => hf x (List.mem_cons_of_mem a hx)).bind fun bs _ => only_ok _

end Fault

/-! ### Computations in a run -/

namespace Running

/-- If the computation ends with a fault, the fault has the property. -/
def Only (P : Fault → Prop) (m : Running α) : Prop :=
  ∀ s fault s', m.run s = .error fault s' → P fault

lemma only_pure (a : α) : Only P (pure a : Running α) := fun _ _ _ h => nomatch h

lemma only_throw {fault : Fault} (h : P fault) : Only P (throw fault : Running α) := by
  intro s fault' s' hrun
  obtain ⟨rfl, -⟩ := EStateM.Result.error.inj hrun
  exact h

lemma Only.bind {m : Running α} {f : α → Running β} (hm : Only P m)
    (hf : ∀ a, Only P (f a)) : Only P (m >>= f) := by
  intro s fault s' hrun
  rw [EStateM.run_bind] at hrun
  cases hms : m.run s with
  | error e s₁ =>
      rw [hms] at hrun
      obtain ⟨rfl, -⟩ := EStateM.Result.error.inj hrun
      exact hm s e s₁ hms
  | ok a s₁ =>
      rw [hms] at hrun
      exact hf a s₁ fault s' hrun

lemma only_change (f : Run → α × Run) : Only P (change f) := fun _ _ _ h => nomatch h

lemma only_mapM {f : α → Running β} {l : List α} (hf : ∀ a ∈ l, Only P (f a)) :
    Only P (l.mapM f) := by
  induction l with
  | nil => exact only_pure _
  | cons a rest ih =>
      rw [List.mapM_cons]
      refine (hf a List.mem_cons_self).bind fun b => ?_
      exact (ih fun x hx => hf x (List.mem_cons_of_mem a hx)).bind fun bs => only_pure _

end Running

/-! ### Plans -/

namespace Plan

instance : LawfulMonad Plan :=
  LawfulMonad.mk' Plan (fun p => bind_done p) done_bind bind_assoc

/-- If the plan itself ends with a fault, whatever it is answered, the fault has the property. -/
def Only (P : Fault → Prop) : Plan α → Prop
  | done _ => True
  | fail fault => P fault
  | expression _ _ _ next => ∀ code, (next code).Only P
  | statements _ next => ∀ code, (next code).Only P
  | identifier _ _ next => ∀ id, (next id).Only P
  | fresh _ _ next => ∀ id, (next id).Only P
  | helper _ _ next => ∀ id, (next id).Only P
  | define _ _ next => next.Only P
  | surround _ next => ∀ code, (next code).Only P

/-- A plan that is carried out adds no faults to its own and those of the services. -/
lemma Only.run {p : Plan α} {indent : String} {s : Services} (hp : p.Only P)
    (hexpression : ∀ socket required default,
      Running.Only P (s.expression socket required default))
    (hstatements : ∀ socket, Running.Only P (s.statements socket))
    (hsurround : ∀ code, Running.Only P (s.surround code)) :
    Running.Only P (p.run indent s) := by
  induction p with
  | done a => exact Running.only_pure a
  | fail fault => exact Running.only_throw hp
  | expression socket required default next ih =>
      exact (hexpression socket required default).bind fun code => ih code (hp code)
  | statements socket next ih => exact (hstatements socket).bind fun code => ih code (hp code)
  | identifier name kind next ih => exact (Running.only_change _).bind fun id => ih id (hp id)
  | fresh hint kind next ih => exact (Running.only_change _).bind fun id => ih id (hp id)
  | helper key lines next ih => exact (Running.only_change _).bind fun id => ih id (hp id)
  | define key text next ih => exact (Running.only_change _).bind fun _ => ih hp
  | surround code next ih => exact (hsurround code).bind fun code => ih code (hp code)

end Plan

end Blockscribe
