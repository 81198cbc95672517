/-
What a plan asks for, and what becomes of what it is told.

* `Question.IsOwn`: identifiers and definitions, which a plan asks of the run and not of the blocks
  around it. `Question.IsCode`: questions that are answered by code.
* `Plan.Tells`: the questions for identifiers and definitions have a given property, and if code in
  an answer has a property of texts, then so have the result or a definition. It is kept when one
  plan follows another.
* `Tells.of_run`: what this says of the exchanges of a plan that is carried out.
* `Bearing`: properties of texts that last when something is put around a text.
-/
import Blockscribe.Number.Reading
import Blockscribe.Proofs.Plan.Exchanges
import Blockscribe.Proofs.Plan.Faults

namespace Blockscribe

namespace Question

/-- Whether something is asked of the run: an identifier, or that a definition be written. -/
def IsOwn : Question → Prop
  | identifier .. | fresh .. | helper .. | define .. => True
  | _ => False

/-- Whether the answer is code. -/
def IsCode : Question → Prop
  | expression .. | statements .. | surround .. => True
  | _ => False

end Question

/-- A property of texts that lasts when something is put around a text, and that no numeral has. -/
structure Bearing (B : String → Prop) : Prop where
  append {a b : String} : B a ∨ B b → B (a ++ b)
  ne_empty {a : String} : B a → a ≠ ""
  not_numeral {a : String} : B a → Number.isNumeral a = false

/-- What a text has lasts when something is put on both its sides. -/
lemma Bearing.around {B : String → Prop} (hB : Bearing B) {code : String} (h : B code)
    (before after : String) : B (before ++ code ++ after) :=
  hB.append (.inl (hB.append (.inr h)))

/-- What no text has lasts. -/
lemma bearing_false : Bearing fun _ => False := ⟨fun h => h.elim id id, False.elim, False.elim⟩

namespace Plan

variable {α β : Type} {Q : Question → Prop} {U : String → String → Prop} {B : String → Prop}
  {R S : α → Prop} {T : β → Prop} {told told' : Prop} {p : Plan α} {f : α → Plan β}

/-- Whatever the answers are, as long as surroundings are related by `U` to what they surround:
identifiers and definitions are asked for as `Q` allows, and a text with the property `B` that the
plan has been told, now or before, is in the result as `R` says, or in a definition. -/
def Tells (Q : Question → Prop) (U : String → String → Prop) (B : String → Prop) (R : α → Prop) :
    Prop → Plan α → Prop
  | told, done a => told → R a
  | _, fail _ => True
  | told, expression _ _ _ next => ∀ code, (next code).Tells Q U B R (told ∨ B code)
  | told, statements _ next => ∀ code, (next code).Tells Q U B R (told ∨ B code)
  | told, identifier name kind next =>
    Q (.identifier name kind) ∧ ∀ id, (next id).Tells Q U B R told
  | told, fresh hint kind next => Q (.fresh hint kind) ∧ ∀ id, (next id).Tells Q U B R told
  | told, helper key lines next => Q (.helper key lines) ∧ ∀ id, (next id).Tells Q U B R told
  | told, define key text next => Q (.define key text) ∧ next.Tells Q U B R (told ∧ ¬ B text)
  | told, surround code next =>
    (told → B code) ∧ ∀ full, U code full → (next full).Tells Q U B R (B full)

/-- The less a plan has been told, the less it has to tell. -/
lemma Tells.anti (hp : p.Tells Q U B R told') (h : told → told') : p.Tells Q U B R told := by
  induction p generalizing told told' with
  | done a => exact fun htold => hp (h htold)
  | fail fault => exact trivial
  | expression socket required default next ih =>
      exact fun code => ih code (hp code) (Or.imp_left h)
  | statements socket next ih => exact fun code => ih code (hp code) (Or.imp_left h)
  | identifier name kind next ih => exact ⟨hp.1, fun id => ih id (hp.2 id) h⟩
  | fresh hint kind next ih => exact ⟨hp.1, fun id => ih id (hp.2 id) h⟩
  | helper key lines next ih => exact ⟨hp.1, fun id => ih id (hp.2 id) h⟩
  | define key text next ih => exact ⟨hp.1, ih hp.2 (And.imp_left h)⟩
  | surround code next ih => exact ⟨fun htold => hp.1 (h htold), hp.2⟩

lemma Tells.bind (hp : p.Tells Q U B S told) (hf : ∀ a, (f a).Tells Q U B T (S a)) :
    (p >>= f).Tells Q U B T told := by
  induction p generalizing told with
  | done a => exact (hf a).anti hp
  | fail fault => exact trivial
  | expression socket required default next ih => exact fun code => ih code (hp code)
  | statements socket next ih => exact fun code => ih code (hp code)
  | identifier name kind next ih => exact ⟨hp.1, fun id => ih id (hp.2 id)⟩
  | fresh hint kind next ih => exact ⟨hp.1, fun id => ih id (hp.2 id)⟩
  | helper key lines next ih => exact ⟨hp.1, fun id => ih id (hp.2 id)⟩
  | define key text next ih => exact ⟨hp.1, ih hp.2⟩
  | surround code next ih => exact ⟨hp.1, fun full hfull => ih full (hp.2 full hfull)⟩

lemma Tells.mono (hp : p.Tells Q U B S told) (h : ∀ a, S a → R a) : p.Tells Q U B R told := by
  have hbind := hp.bind (T := R) (f := Plan.done) fun a ha => h a ha
  rwa [show p >>= Plan.done = p from bind_done p] at hbind

lemma tells_pure {a : α} (h : told → R a) : (pure a : Plan α).Tells Q U B R told := h

lemma tells_fail {fault : Fault} : (fail fault : Plan α).Tells Q U B R told := trivial

lemma tells_refuse {type operation : String} {fields : Entries} :
    (refuse type operation fields : Plan α).Tells Q U B R told := trivial

lemma tells_expr (socket : String) (required : Rank) (default : String) :
    (expr socket required default).Tells Q U B (fun code => told ∨ B code) told :=
  fun _ => id

lemma tells_body (socket : String) :
    (body socket).Tells Q U B (fun code => told ∨ B code) told := fun _ => id

lemma tells_variableNamed {name : String} (h : Q (.identifier name .variable)) :
    (variableNamed name).Tells Q U B (fun _ => told) told := ⟨h, fun _ => id⟩

lemma tells_procedureNamed {name : String} (h : Q (.identifier name .procedure)) :
    (procedureNamed name).Tells Q U B (fun _ => told) told := ⟨h, fun _ => id⟩

lemma tells_temporary {hint : String} (h : Q (.fresh hint .variable)) :
    (temporary hint).Tells Q U B (fun _ => told) told := ⟨h, fun _ => id⟩

lemma tells_routine {key : String} {lines : List String} (h : Q (.helper key lines)) :
    (routine key lines).Tells Q U B (fun _ => told) told := ⟨h, fun _ => id⟩

lemma tells_writeDefinition {key text : String} (h : Q (.define key text)) :
    (writeDefinition key text).Tells Q U B (fun _ => told ∧ ¬ B text) told := ⟨h, id⟩

/-- What one plan of a row is told is in its result, and so in the list of results. -/
lemma tells_mapM {C : β → Prop} {f : α → Plan β} {l : List α}
    (hf : ∀ a ∈ l, ∀ told, (f a).Tells Q U B (fun b => told ∨ C b) told) (told : Prop) :
    (l.mapM f).Tells Q U B (fun bs => told ∨ ∃ b ∈ bs, C b) told := by
  induction l generalizing told with
  | nil => exact tells_pure .inl
  | cons a rest ih =>
      rw [List.mapM_cons]
      refine (hf a List.mem_cons_self told).bind fun b => ?_
      refine (ih (fun x hx => hf x (List.mem_cons_of_mem a hx)) _).bind fun bs => tells_pure ?_
      rintro ((htold | hb) | ⟨c, hc, hbear⟩)
      · exact .inl htold
      · exact .inr ⟨b, List.mem_cons_self, hb⟩
      · exact .inr ⟨c, List.mem_cons_of_mem b hc, hbear⟩

section Runs

variable {indent : String} {services : Services} {s t : Run} {answer : String}
  (hU : ∀ code full, U code full → B code → B full)
  (hsurround : ∀ code s full t, (services.surround code).run s = .ok full t → U code full)

include hU hsurround

/-- How a plan goes on when a question has been answered: the question was allowed, and the plan has
been told what it had been told before, or it has written it in a definition. -/
lemma Tells.goes_on {q : Question} {next : String → Plan α}
    (hp : (ask q next).Tells Q U B R told)
    (hanswer : (q.answer indent services).run s = .ok answer t) :
    ∃ told', (next answer).Tells Q U B R told' ∧ (q.IsOwn → Q q) ∧
      ((told ∨ q.IsCode ∧ B answer) → told' ∨ ∃ key text, q = .define key text ∧ B text) := by
  cases q with
  | expression socket required default =>
      exact ⟨_, hp answer, False.elim, fun h => .inl (h.imp_right And.right)⟩
  | statements socket =>
      exact ⟨_, hp answer, False.elim, fun h => .inl (h.imp_right And.right)⟩
  | identifier name kind =>
      exact ⟨_, hp.2 answer, fun _ => hp.1, fun h => .inl (h.elim id fun h => h.1.elim)⟩
  | fresh hint kind =>
      exact ⟨_, hp.2 answer, fun _ => hp.1, fun h => .inl (h.elim id fun h => h.1.elim)⟩
  | helper key lines =>
      exact ⟨_, hp.2 answer, fun _ => hp.1, fun h => .inl (h.elim id fun h => h.1.elim)⟩
  | define key text =>
      obtain ⟨rfl, -⟩ := EStateM.Result.ok.inj hanswer
      refine ⟨_, hp.2, fun _ => hp.1, fun h => ?_⟩
      have htold : told := h.elim id fun h => h.1.elim
      by_cases htext : B text
      · exact .inr ⟨key, text, rfl, htext⟩
      · exact .inl ⟨htold, htext⟩
  | surround code =>
      have hfull := hsurround code s answer t hanswer
      refine ⟨_, hp.2 answer hfull, False.elim, fun h => .inl ?_⟩
      exact h.elim (fun htold => hU _ _ hfull (hp.1 htold)) And.right

/-- What is said of a plan that is carried out: its questions for identifiers and definitions are
allowed, and code that it is told is in its result or in a definition that it writes. -/
lemma Tells.of_run {a : α} (hp : p.Tells Q U B R told)
    (hrun : (p.run indent services).run s = .ok a t) :
    (∀ e ∈ p.exchanges indent services s, e.question.IsOwn → Q e.question) ∧
    ((told ∨ ∃ e ∈ p.exchanges indent services s, e.question.IsCode ∧ B e.answer) →
      R a ∨ ∃ e ∈ p.exchanges indent services s, ∃ key text,
        e.question = .define key text ∧ B text) := by
  induction p using ask_induction generalizing s told with
  | done a' =>
      obtain ⟨rfl, rfl⟩ := EStateM.Result.ok.inj hrun
      refine ⟨nofun, ?_⟩
      rintro (htold | ⟨e, he, -⟩)
      · exact .inl (hp htold)
      · exact nomatch he
  | fail fault => exact nomatch hrun
  | ask q next ih =>
      obtain ⟨answer, u, hanswer, hrest⟩ := exists_of_run_ask hrun
      rw [exchanges_ask_of_ok hanswer]
      obtain ⟨told', hgoes, hown, htells⟩ := hp.goes_on hU hsurround hanswer
      obtain ⟨hothers, hlast⟩ := ih answer hgoes hrest
      refine ⟨List.forall_mem_cons.mpr ⟨hown, hothers⟩, fun h => ?_⟩
      have hfirst : (told' ∨ ∃ key text, q = .define key text ∧ B text) ∨
          ∃ e ∈ (next answer).exchanges indent services u, e.question.IsCode ∧ B e.answer := by
        rcases h with htold | ⟨e, he, hcode⟩
        · exact .inl (htells (.inl htold))
        · rcases List.mem_cons.mp he with rfl | he
          · exact .inl (htells (.inr hcode))
          · exact .inr ⟨e, he, hcode⟩
      rcases hfirst with (htold | ⟨key, text, rfl, htext⟩) | hlater
      · exact (hlast (.inl htold)).imp_right fun ⟨e, he, h⟩ => ⟨e, List.mem_cons_of_mem _ he, h⟩
      · exact .inr ⟨_, List.mem_cons_self, key, text, rfl, htext⟩
      · exact (hlast (.inr hlater)).imp_right fun ⟨e, he, h⟩ => ⟨e, List.mem_cons_of_mem _ he, h⟩

end Runs

end Plan

end Blockscribe
