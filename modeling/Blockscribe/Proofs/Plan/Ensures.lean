/-
What is known of results when statements and surroundings have given properties.

* `Running.Ensures`: whatever names have been issued before, a result of the computation has a given
  property. It is kept when one computation follows another.
* `Plan.Ensures`: the same of a plan, for statements and surroundings with given properties; what a
  plan yields it ensures (`Yields.ensures`), and so does a plan that goes on like itself
  (`Alike.ensures`).
* `Plan.Ensures.run`: carrying out such a plan ensures its property if the services do.
-/
import Blockscribe.Proofs.Plan.Yields

namespace Blockscribe

variable {α β : Type} {reserved : List String} {P : α → Prop} {Q : β → Prop}

/-! ### Computations in a run -/

namespace Running

variable {m : Running α} {f : α → Running β}

/-- A result of the computation has the property, and names are issued as before. -/
def Ensures (reserved : List String) (P : α → Prop) (m : Running α) : Prop :=
  ∀ s : Run, s.NamesFrom reserved → ∀ a t, m.run s = .ok a t → t.NamesFrom reserved ∧ P a

lemma ensures_pure {a : α} (h : P a) : Ensures reserved P (pure a : Running α) := by
  intro s hs b t hrun
  obtain ⟨rfl, rfl⟩ := EStateM.Result.ok.inj hrun
  exact ⟨hs, h⟩

lemma ensures_throw (fault : Fault) : Ensures reserved P (throw fault : Running α) :=
  fun _ _ _ _ hrun => nomatch hrun

lemma ensures_ofExcept {e : Except Fault α} (h : ∀ a, e = .ok a → P a) :
    Ensures reserved P (ofExcept e) := by
  cases e with
  | error fault => exact ensures_throw fault
  | ok a => exact ensures_pure (h a rfl)

lemma Ensures.bind (hm : Ensures reserved P m) (hf : ∀ a, P a → Ensures reserved Q (f a)) :
    Ensures reserved Q (m >>= f) := by
  intro s hs b t hrun
  obtain ⟨a, s', hfirst, hrest⟩ := exists_of_run_bind hrun
  obtain ⟨hs', ha⟩ := hm s hs a s' hfirst
  exact hf a ha s' hs' b t hrest

lemma Ensures.mono {P' : α → Prop} (hm : Ensures reserved P m) (h : ∀ a, P a → P' a) :
    Ensures reserved P' m := by
  intro s hs a t hrun
  obtain ⟨ht, ha⟩ := hm s hs a t hrun
  exact ⟨ht, h a ha⟩

/-- A computation that leads to later states ensures what holds of its results. -/
lemma Extends.ensures (hm : Extends reserved m)
    (h : ∀ s, s.NamesFrom reserved → ∀ a t, m.run s = .ok a t → P a) :
    Ensures reserved P m :=
  fun s hs a t hrun => ⟨(hm.grows_of_ok hs hrun).namesFrom, h s hs a t hrun⟩

/-- A computation that leads to later states ensures nothing else. -/
lemma Extends.ensures_true (hm : Extends reserved m) : Ensures reserved (fun _ => True) m :=
  hm.ensures fun _ _ _ _ _ => trivial

/-- Names get identifiers. -/
lemma ensures_named (name : String) (kind : NameKind) :
    Ensures reserved (isIdentifier · = true) (named name kind) := by
  intro s hs id t hrun
  obtain ⟨rfl, rfl⟩ := EStateM.Result.ok.inj hrun
  exact ⟨(Run.grows_named hs name kind).namesFrom, (Run.legal_named hs name kind).2⟩

lemma ensures_fresh (hint : String) (kind : NameKind) :
    Ensures reserved (fun _ => True) (fresh hint kind) :=
  Extends.ensures_true fun _ hs => Run.grows_fresh hs hint kind

lemma ensures_provide (indent key : String) (lines : List String) :
    Ensures reserved (fun _ => True) (change fun r => r.provide indent key lines) :=
  Extends.ensures_true fun _ hs => Run.grows_provide hs indent key lines

lemma ensures_define (key text : String) : Ensures reserved (fun _ => True) (define key text) :=
  Extends.ensures_true fun _ hs => Run.grows_define hs key text

end Running

/-! ### Plans -/

namespace Plan

variable {S U : String → Prop} {p : Plan α} {f : α → Plan β}

/-- The results of the plan have the property if the statements and the surroundings that it is
answered have theirs, whatever the other answers are. Identifiers are answered by identifiers. -/
def Ensures (S U : String → Prop) (P : α → Prop) : Plan α → Prop
  | done a => P a
  | fail _ => True
  | expression _ _ _ next => ∀ code, (next code).Ensures S U P
  | statements _ next => ∀ code, S code → (next code).Ensures S U P
  | identifier _ _ next => ∀ id, isIdentifier id = true → (next id).Ensures S U P
  | fresh _ _ next => ∀ id, (next id).Ensures S U P
  | helper _ _ next => ∀ id, (next id).Ensures S U P
  | define _ _ next => next.Ensures S U P
  | surround _ next => ∀ full, U full → (next full).Ensures S U P

lemma Ensures.bind (hp : p.Ensures S U P) (hf : ∀ a, P a → (f a).Ensures S U Q) :
    (p >>= f).Ensures S U Q := by
  induction p with
  | done a => exact hf a hp
  | fail fault => exact trivial
  | expression socket required default next ih => exact fun code => ih code (hp code)
  | statements socket next ih => exact fun code hcode => ih code (hp code hcode)
  | identifier name kind next ih => exact fun id hid => ih id (hp id hid)
  | fresh hint kind next ih => exact fun id => ih id (hp id)
  | helper key lines next ih => exact fun id => ih id (hp id)
  | define key text next ih => exact ih hp
  | surround code next ih => exact fun full hfull => ih full (hp full hfull)

lemma Ensures.mono {S' U' : String → Prop} {P' : α → Prop} (hp : p.Ensures S U P)
    (hS : ∀ code, S' code → S code) (hU : ∀ full, U' full → U full) (hP : ∀ a, P a → P' a) :
    p.Ensures S' U' P' := by
  induction p with
  | done a => exact hP a hp
  | fail fault => exact trivial
  | expression socket required default next ih => exact fun code => ih code (hp code)
  | statements socket next ih => exact fun code hcode => ih code (hp code (hS code hcode))
  | identifier name kind next ih => exact fun id hid => ih id (hp id hid)
  | fresh hint kind next ih => exact fun id => ih id (hp id)
  | helper key lines next ih => exact fun id => ih id (hp id)
  | define key text next ih => exact ih hp
  | surround code next ih => exact fun full hfull => ih full (hp full (hU full hfull))

/-- What a plan yields it ensures. -/
lemma Yields.ensures (hp : p.Yields P) : p.Ensures S U P := by
  induction p with
  | done a => exact hp
  | fail fault => exact trivial
  | expression socket required default next ih => exact fun code => ih code (hp code)
  | statements socket next => exact hp.elim
  | identifier name kind next ih => exact fun id hid => ih id (hp id hid)
  | fresh hint kind next ih => exact fun id => ih id (hp id)
  | helper key lines next ih => exact fun id => ih id (hp id)
  | define key text next ih => exact ih hp
  | surround code next => exact hp.elim

/-- A plan that goes on like itself ensures what holds of a result and itself. -/
lemma Alike.ensures {S U : String → String → Prop} {R : α → α → Prop} (h : Alike S U R p p) :
    p.Ensures (fun code => S code code) (fun full => U full full) fun a => R a a := by
  induction p with
  | done a => cases h with | done hR => exact hR
  | fail fault => exact trivial
  | expression socket required default next ih =>
      cases h with | expression hnext => exact fun code => ih code (hnext code)
  | statements socket next ih =>
      cases h with | statements hnext => exact fun code hcode => ih code (hnext code code hcode)
  | identifier name kind next ih =>
      cases h with | identifier hnext => exact fun id hid => ih id (hnext id hid)
  | fresh hint kind next ih =>
      cases h with | fresh hnext => exact fun id => ih id (hnext id)
  | helper key lines next ih =>
      cases h with | helper hnext => exact fun id => ih id (hnext id)
  | define key text next ih =>
      cases h with | define hnext => exact ih hnext
  | surround code next ih =>
      cases h with | surround hnext => exact fun full hfull => ih full (hnext full full hfull)

/-- Carrying out a plan ensures what the plan ensures. -/
lemma Ensures.run (hp : p.Ensures S U P) {indent : String} {services : Services}
    (hexpression : ∀ socket required default,
      Running.Ensures reserved (fun _ => True) (services.expression socket required default))
    (hstatements : ∀ socket, Running.Ensures reserved S (services.statements socket))
    (hsurround : ∀ code, Running.Ensures reserved U (services.surround code)) :
    Running.Ensures reserved P (p.run indent services) := by
  induction p with
  | done a => exact Running.ensures_pure hp
  | fail fault => exact Running.ensures_throw fault
  | expression socket required default next ih =>
      exact (hexpression socket required default).bind fun code _ => ih code (hp code)
  | statements socket next ih =>
      exact (hstatements socket).bind fun code hcode => ih code (hp code hcode)
  | identifier name kind next ih =>
      exact (Running.ensures_named name kind).bind fun id hid => ih id (hp id hid)
  | fresh hint kind next ih => exact (Running.ensures_fresh hint kind).bind fun id _ => ih id (hp id)
  | helper key lines next ih =>
      exact (Running.ensures_provide indent key lines).bind fun id _ => ih id (hp id)
  | define key text next ih => exact (Running.ensures_define key text).bind fun _ _ => ih hp
  | surround code next ih =>
      exact (hsurround code).bind fun full hfull => ih full (hp full hfull)

end Plan

end Blockscribe
