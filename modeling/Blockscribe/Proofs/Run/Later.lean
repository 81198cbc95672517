/-
The states that a run goes through, one change after the other.

* `Run.Step`: what one question for an identifier or a definition changes. `Run.Later`: any number
  of such changes, and `Later.keeps` is the induction on them.
* `Running.Advances`: a computation whose results come with later states. It is kept when one
  computation follows another.
* `Plan.later_of_run`: a plan that asks only for what is allowed leads to later states, and so does
  each of its exchanges.
-/
import Mathlib.Logic.Relation
import Blockscribe.Proofs.Plan.Tells

namespace Blockscribe

variable {Q : Question → Prop} {indent : String}

namespace Run

/-- The change that comes with an identifier or a definition that may be asked for. -/
inductive Step (Q : Question → Prop) (indent : String) : Run → Run → Prop
  | named {s : Run} {name : String} {kind : NameKind} : Q (.identifier name kind) →
      Step Q indent s (s.named name kind).2
  | fresh {s : Run} {hint : String} {kind : NameKind} : Q (.fresh hint kind) →
      Step Q indent s (s.fresh hint kind).2
  | provide {s : Run} {key : String} {lines : List String} : Q (.helper key lines) →
      Step Q indent s (s.provide indent key lines).2
  | define {s : Run} {key text : String} : Q (.define key text) →
      Step Q indent s (s.define key text)

/-- A state that is reached by any number of such changes. -/
def Later (Q : Question → Prop) (indent : String) : Run → Run → Prop :=
  Relation.ReflTransGen (Step Q indent)

variable {s t u : Run}

lemma Later.refl (s : Run) : Later Q indent s s := Relation.ReflTransGen.refl

lemma Step.later (h : Step Q indent s t) : Later Q indent s t := Relation.ReflTransGen.single h

lemma Later.trans (h : Later Q indent s t) (h' : Later Q indent t u) : Later Q indent s u :=
  Relation.ReflTransGen.trans h h'

/-- What every change keeps is kept in later states. -/
lemma Later.keeps {P : Run → Prop} (h : Later Q indent s t)
    (hstep : ∀ s t, Step Q indent s t → P s → P t) (hs : P s) : P t := by
  induction h with
  | refl => exact hs
  | tail _ hlast ih => exact hstep _ _ hlast ih

/-- Along changes identifiers come from requests, and known names stay known. -/
lemma Later.grows {reserved : List String} (h : Later Q indent s t) (hs : s.NamesFrom reserved) :
    s.Grows reserved t := by
  refine h.keeps (P := fun t => s.Grows reserved t) (fun t u hstep hgrows => ?_) hs.grows
  refine hgrows.trans ?_
  cases hstep with
  | named => exact grows_named hgrows.namesFrom _ _
  | fresh => exact grows_fresh hgrows.namesFrom _ _
  | provide => exact grows_provide hgrows.namesFrom _ _ _
  | define => exact grows_define hgrows.namesFrom _ _

/-- The identifiers of variables are asked for one after the other. -/
lemma later_namedAll {names : List String} (h : ∀ name ∈ names, Q (.identifier name .variable))
    (s : Run) : Later Q indent s (s.namedAll names).2 := by
  induction names generalizing s with
  | nil => exact .refl s
  | cons name rest ih =>
      rw [List.forall_mem_cons] at h
      exact (Step.named h.1).later.trans (ih h.2 _)

/-- The answer to a question for an identifier or a definition comes with one change. -/
lemma later_of_own {services : Services} {q : Question} {answer : String} (hown : q.IsOwn)
    (hq : Q q) (h : (q.answer indent services).run s = .ok answer t) : Later Q indent s t := by
  cases q with
  | expression | statements | surround => exact hown.elim
  | identifier name kind =>
      obtain ⟨-, rfl⟩ := EStateM.Result.ok.inj h
      exact (Step.named hq).later
  | fresh hint kind =>
      obtain ⟨-, rfl⟩ := EStateM.Result.ok.inj h
      exact (Step.fresh hq).later
  | helper key lines =>
      obtain ⟨-, rfl⟩ := EStateM.Result.ok.inj h
      exact (Step.provide hq).later
  | define key text =>
      obtain ⟨-, rfl⟩ := EStateM.Result.ok.inj h
      exact (Step.define hq).later

end Run

/-! ### Computations in a run -/

namespace Running

variable {α β : Type} {m : Running α}

/-- The state that comes with a result is a later one. -/
def Advances (Q : Question → Prop) (indent : String) (m : Running α) : Prop :=
  ∀ s a t, m.run s = .ok a t → s.Later Q indent t

lemma advances_pure (a : α) : Advances Q indent (pure a : Running α) := by
  intro s b t h
  obtain ⟨-, rfl⟩ := EStateM.Result.ok.inj h
  exact .refl s

lemma advances_throw (fault : Fault) : Advances Q indent (throw fault : Running α) :=
  fun _ _ _ h => nomatch h

lemma advances_ofExcept (e : Except Fault α) : Advances Q indent (ofExcept e) := by
  cases e with
  | ok a => exact advances_pure a
  | error fault => exact advances_throw fault

lemma Advances.bind {f : α → Running β} (hm : Advances Q indent m)
    (hf : ∀ a, Advances Q indent (f a)) : Advances Q indent (m >>= f) := by
  intro s b t h
  obtain ⟨a, u, hfirst, hrest⟩ := exists_of_run_bind h
  exact (hm s a u hfirst).trans (hf a u b t hrest)

/-- What follows the result of something that leaves the state alone, given what the result is. -/
lemma advances_ofExcept_bind {e : Except Fault α} {f : α → Running β}
    (hf : ∀ a, e = .ok a → Advances Q indent (f a)) : Advances Q indent (ofExcept e >>= f) := by
  cases e with
  | ok a => exact hf a rfl
  | error fault => exact advances_throw fault

lemma advances_mapM {f : α → Running β} {l : List α} (hf : ∀ a ∈ l, Advances Q indent (f a)) :
    Advances Q indent (l.mapM f) := by
  induction l with
  | nil => exact advances_pure _
  | cons a rest ih =>
      rw [List.mapM_cons]
      refine (hf a List.mem_cons_self).bind fun b => ?_
      exact (ih fun x hx => hf x (List.mem_cons_of_mem a hx)).bind fun bs => advances_pure _

end Running

/-! ### Plans -/

namespace Plan

variable {α : Type} {U : String → String → Prop} {R : α → Prop} {told : Prop} {p : Plan α}
  {services : Services} {s t : Run} {a : α}

/-- A plan that asks only for what is allowed leads to later states, and so does each of its
exchanges. -/
lemma Tells.later (hp : p.Tells Q U (fun _ => False) R told)
    (hexpression : ∀ socket required default,
      Running.Advances Q indent (services.expression socket required default))
    (hstatements : ∀ socket, Running.Advances Q indent (services.statements socket))
    (hsurround : ∀ code, Running.Advances Q indent (services.surround code))
    (hU : ∀ code s full t, (services.surround code).run s = .ok full t → U code full)
    (hrun : (p.run indent services).run s = .ok a t) :
    s.Later Q indent t ∧ ∀ e ∈ p.exchanges indent services s,
      s.Later Q indent e.before ∧ e.before.Later Q indent e.after ∧
        e.after.Later Q indent t := by
  obtain ⟨hallowed, -⟩ := hp.of_run (fun _ _ _ => id) hU hrun
  have hexchange : ∀ e ∈ p.exchanges indent services s, e.before.Later Q indent e.after := by
    intro e he
    have hanswer := run_answer_of_mem_exchanges he
    by_cases hown : e.question.IsOwn
    · exact Run.later_of_own hown (hallowed e he hown) hanswer
    · obtain ⟨q, answer, before, after⟩ := e
      cases q with
      | expression socket required default => exact hexpression _ _ _ _ _ _ hanswer
      | statements socket => exact hstatements _ _ _ _ hanswer
      | surround code => exact hsurround _ _ _ _ hanswer
      | identifier | fresh | helper | define => exact absurd trivial hown
  obtain ⟨hlast, hbetween⟩ := related_of_exchanges (L := Run.Later Q indent) Run.Later.refl
    (fun _ _ _ => Run.Later.trans) hexchange hrun
  exact ⟨hlast, fun e he => ⟨(hbetween e he).1, hexchange e he, (hbetween e he).2⟩⟩

end Plan

end Blockscribe
