/-
How a computation ends, with a result or with a fault.

* `Running.Ends`: from states in which identifiers come from requests, a result has one property and
  a fault another. It is kept when one computation follows another.
* `Plan.Meets`: the same of a plan of which the answers have given properties, or are the defaults.
* `Meets.only`: what is known of the faults then, if nothing is known of the answers.
* `Meets.run`: carrying out such a plan ends as the plan does, if the services answer so.
-/
import Blockscribe.Proofs.Plan.Ensures

namespace Blockscribe

variable {α β : Type} {reserved : List String} {F G : Fault → Prop} {P : α → Prop} {Q : β → Prop}

/-! ### Computations in a run -/

namespace Running

variable {m : Running α} {f : α → Running β}

/-- A result of the computation has one property, and a fault another. -/
structure Ends (reserved : List String) (F : Fault → Prop) (P : α → Prop) (m : Running α) :
    Prop where
  ensures : Ensures reserved P m
  faults : ∀ s : Run, s.NamesFrom reserved → ∀ fault t, m.run s = .error fault t → F fault

lemma ends_pure {a : α} (h : P a) : Ends reserved F P (pure a : Running α) :=
  ⟨ensures_pure h, fun _ _ _ _ hrun => nomatch hrun⟩

lemma ends_throw {fault : Fault} (h : F fault) : Ends reserved F P (throw fault : Running α) :=
  ⟨ensures_throw fault, fun s _ => only_throw h s⟩

lemma ends_ofExcept {e : Except Fault α} (hf : Fault.Only F e) (h : ∀ a, e = .ok a → P a) :
    Ends reserved F P (ofExcept e) := by
  cases e with
  | error fault => exact ends_throw (Fault.only_error_iff.mp hf)
  | ok a => exact ends_pure (h a rfl)

/-- A computation that ends with no fault. -/
lemma Ensures.ends (hm : Ensures reserved P m) (hf : Only (fun _ => False) m) :
    Ends reserved F P m :=
  ⟨hm, fun s _ fault t hrun => (hf s fault t hrun).elim⟩

lemma Ends.bind (hm : Ends reserved F P m) (hf : ∀ a, P a → Ends reserved F Q (f a)) :
    Ends reserved F Q (m >>= f) where
  ensures := hm.ensures.bind fun a ha => (hf a ha).ensures
  faults := by
    intro s hs fault t hrun
    rw [EStateM.run_bind] at hrun
    cases hfirst : m.run s with
    | error e s' =>
        rw [hfirst] at hrun
        obtain ⟨rfl, -⟩ := EStateM.Result.error.inj hrun
        exact hm.faults s hs e s' hfirst
    | ok a s' =>
        rw [hfirst] at hrun
        obtain ⟨hs', ha⟩ := hm.ensures s hs a s' hfirst
        exact (hf a ha).faults s' hs' fault t hrun

lemma Ends.mono {P' : α → Prop} (hm : Ends reserved F P m) (hF : ∀ fault, F fault → G fault)
    (hP : ∀ a, P a → P' a) : Ends reserved G P' m :=
  ⟨hm.ensures.mono hP, fun s hs fault t hrun => hF fault (hm.faults s hs fault t hrun)⟩

lemma ends_mapM {f : α → Running β} {l : List α}
    (hf : ∀ a ∈ l, Ends reserved F (fun _ => True) (f a)) :
    Ends reserved F (fun _ => True) (l.mapM f) := by
  induction l with
  | nil => exact ends_pure trivial
  | cons a rest ih =>
      rw [List.mapM_cons]
      refine (hf a List.mem_cons_self).bind fun b _ => ?_
      exact (ih fun x hx => hf x (List.mem_cons_of_mem a hx)).bind fun bs _ => ends_pure trivial

end Running

/-! ### Plans -/

namespace Plan

variable {A B : String → Prop} {p : Plan α} {f : α → Plan β}

/-- The results of the plan have one property and its own faults another, if it is answered by
expressions with the property `A`, or by the defaults, and by identifiers with the property `B`. -/
def Meets (A B : String → Prop) (F : Fault → Prop) (P : α → Prop) : Plan α → Prop
  | done a => P a
  | fail fault => F fault
  | expression _ _ default next => ∀ code, A code ∨ code = default → (next code).Meets A B F P
  | statements _ next => ∀ code, (next code).Meets A B F P
  | identifier _ _ next => ∀ id, B id → (next id).Meets A B F P
  | fresh _ _ next => ∀ id, (next id).Meets A B F P
  | helper _ _ next => ∀ id, (next id).Meets A B F P
  | define _ _ next => next.Meets A B F P
  | surround _ next => ∀ full, (next full).Meets A B F P

lemma meets_pure {a : α} (h : P a) : (pure a : Plan α).Meets A B F P := h

lemma meets_any (a : α) : (pure a : Plan α).Meets A B F fun _ => True := trivial

lemma meets_fail {fault : Fault} (h : F fault) : (fail fault : Plan α).Meets A B F P := h

lemma Meets.bind (hp : p.Meets A B F P) (hf : ∀ a, P a → (f a).Meets A B F Q) :
    (p >>= f).Meets A B F Q := by
  induction p with
  | done a => exact hf a hp
  | fail fault => exact hp
  | expression socket required default next ih => exact fun code hcode => ih code (hp code hcode)
  | statements socket next ih => exact fun code => ih code (hp code)
  | identifier name kind next ih => exact fun id hid => ih id (hp id hid)
  | fresh hint kind next ih => exact fun id => ih id (hp id)
  | helper key lines next ih => exact fun id => ih id (hp id)
  | define key text next ih => exact ih hp
  | surround code next ih => exact fun full => ih full (hp full)

/-- What is known of the results of the first plan need not matter. -/
lemma Meets.bind_any (hp : p.Meets A B F P) (hf : ∀ a, (f a).Meets A B F Q) :
    (p >>= f).Meets A B F Q :=
  hp.bind fun a _ => hf a

lemma Meets.mono {P' : α → Prop} (hp : p.Meets A B F P) (hF : ∀ fault, F fault → G fault)
    (hP : ∀ a, P a → P' a) : p.Meets A B G P' := by
  induction p with
  | done a => exact hP a hp
  | fail fault => exact hF fault hp
  | expression socket required default next ih => exact fun code hcode => ih code (hp code hcode)
  | statements socket next ih => exact fun code => ih code (hp code)
  | identifier name kind next ih => exact fun id hid => ih id (hp id hid)
  | fresh hint kind next ih => exact fun id => ih id (hp id)
  | helper key lines next ih => exact fun id => ih id (hp id)
  | define key text next ih => exact ih hp
  | surround code next ih => exact fun full => ih full (hp full)

lemma meets_expr (socket : String) (required : Rank) (default : String) :
    (expr socket required default).Meets A B F fun code => A code ∨ code = default :=
  fun _ h => h

lemma meets_body (socket : String) : (body socket).Meets A B F fun _ => True := fun _ => trivial

lemma meets_variableNamed (name : String) : (variableNamed name).Meets A B F B := fun _ h => h

lemma meets_procedureNamed (name : String) : (procedureNamed name).Meets A B F B := fun _ h => h

lemma meets_temporary (hint : String) : (temporary hint).Meets A B F fun _ => True :=
  fun _ => trivial

lemma meets_routine (key : String) (lines : List String) :
    (routine key lines).Meets A B F fun _ => True := fun _ => trivial

lemma meets_writeDefinition (key text : String) :
    (writeDefinition key text).Meets A B F fun _ => True := trivial

lemma meets_withSurroundings (code : String) :
    (withSurroundings code).Meets A B F fun _ => True := fun _ => trivial

lemma meets_mapM {f : α → Plan β} {l : List α} (hf : ∀ a ∈ l, ∃ R, (f a).Meets A B F R) :
    (l.mapM f).Meets A B F fun _ => True := by
  induction l with
  | nil => exact meets_pure trivial
  | cons a rest ih =>
      rw [List.mapM_cons]
      obtain ⟨R, hfirst⟩ := hf a List.mem_cons_self
      refine hfirst.bind_any fun b => ?_
      exact (ih fun x hx => hf x (List.mem_cons_of_mem a hx)).bind_any fun bs => meets_pure trivial

/-- If nothing is known of the answers, this much is known of the faults. -/
lemma Meets.only (hp : p.Meets (fun _ => True) (fun _ => True) F P) : p.Only F := by
  induction p with
  | done a => exact trivial
  | fail fault => exact hp
  | expression socket required default next ih =>
      exact fun code => ih code (hp code (.inl trivial))
  | statements socket next ih => exact fun code => ih code (hp code)
  | identifier name kind next ih => exact fun id => ih id (hp id trivial)
  | fresh hint kind next ih => exact fun id => ih id (hp id)
  | helper key lines next ih => exact fun id => ih id (hp id)
  | define key text next ih => exact ih hp
  | surround code next ih => exact fun code => ih code (hp code)

/-- Carrying out a plan ends as the plan does. -/
lemma Meets.run (hp : p.Meets A (isIdentifier · = true) F P) {indent : String} {services : Services}
    (hexpression : ∀ socket required default, Running.Ends reserved F
      (fun code => A code ∨ code = default) (services.expression socket required default))
    (hstatements : ∀ socket, Running.Ends reserved F (fun _ => True) (services.statements socket))
    (hsurround : ∀ code, Running.Ends reserved F (fun _ => True) (services.surround code)) :
    Running.Ends reserved F P (p.run indent services) := by
  induction p with
  | done a => exact Running.ends_pure hp
  | fail fault => exact Running.ends_throw hp
  | expression socket required default next ih =>
      exact (hexpression socket required default).bind fun code hcode => ih code (hp code hcode)
  | statements socket next ih =>
      exact (hstatements socket).bind fun code _ => ih code (hp code)
  | identifier name kind next ih =>
      exact ((Running.ensures_named name kind).ends (Running.only_change _)).bind
        fun id hid => ih id (hp id hid)
  | fresh hint kind next ih =>
      exact ((Running.ensures_fresh hint kind).ends (Running.only_change _)).bind
        fun id _ => ih id (hp id)
  | helper key lines next ih =>
      exact ((Running.ensures_provide indent key lines).ends (Running.only_change _)).bind
        fun id _ => ih id (hp id)
  | define key text next ih =>
      exact ((Running.ensures_define key text).ends (Running.only_change _)).bind fun _ _ => ih hp
  | surround code next ih =>
      exact (hsurround code).bind fun full _ => ih full (hp full)

end Plan

end Blockscribe
