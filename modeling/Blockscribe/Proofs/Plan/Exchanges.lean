/-
The questions that plans put, and the exchanges that come of them.

* `Question`: what a plan asks for; `Question.answer` is how it is answered.
* `Plan.ask`: the plan that puts a question and goes on with the answer. Every plan ends or is one
  of these (`ask_induction`), and it is carried out one question after the other (`run_ask`).
* `Exchange`: a question with its answer and the states around it. `Plan.exchanges` are those of a
  plan that is carried out from a state; `exchanges_bind` says that they follow the plan.
* `related_of_exchanges`: what relates the states around every exchange relates all of them.
-/
import Blockscribe.Proofs.Run.Names

namespace Blockscribe

/-- What a plan asks for. -/
inductive Question
  | expression (socket : String) (required : Grade) (default : String)
  | statements (socket : String)
  | identifier (name : String) (kind : NameKind)
  | fresh (hint : String) (kind : NameKind)
  | helper (key : String) (lines : List String)
  | define (key text : String)
  | surround (code : String)

/-- How a question is answered. A definition is written, and the answer is empty. -/
def Question.answer (indent : String) (services : Services) : Question → Running String
  | .expression socket required default => services.expression socket required default
  | .statements socket => services.statements socket
  | .identifier name kind => Running.named name kind
  | .fresh hint kind => Running.fresh hint kind
  | .helper key lines => Running.change fun r => r.provide indent key lines
  | .define key text => do
    Running.define key text
    return ""
  | .surround code => services.surround code

/-- A question with its answer, and the states before and after it. -/
structure Exchange where
  question : Question
  answer : String
  before : Run
  after : Run

namespace Plan

variable {α β : Type} {indent : String} {services : Services} {p : Plan α} {f : α → Plan β}
  {q : Question} {next : String → Plan α} {s t u : Run} {answer : String} {a : α} {b : β}

/-! ### Questions -/

/-- Puts a question and goes on with its answer. -/
def ask : Question → (String → Plan α) → Plan α
  | .expression socket required default, next => expression socket required default next
  | .statements socket, next => statements socket next
  | .identifier name kind, next => identifier name kind next
  | .fresh hint kind, next => fresh hint kind next
  | .helper key lines, next => helper key lines next
  | .define key text, next => define key text (next "")
  | .surround code, next => surround code next

/-- A property of all plans holds if it holds of those that end, and of one that puts a question
whenever it holds of how it goes on. -/
@[elab_as_elim]
theorem ask_induction {motive : Plan α → Prop} (done : ∀ a, motive (.done a))
    (fail : ∀ fault, motive (.fail fault))
    (ask : ∀ q next, (∀ answer, motive (next answer)) → motive (ask q next)) (p : Plan α) :
    motive p := by
  induction p with
  | done a => exact done a
  | fail fault => exact fail fault
  | expression socket required default next ih =>
      exact ask (.expression socket required default) next ih
  | statements socket next ih => exact ask (.statements socket) next ih
  | identifier name kind next ih => exact ask (.identifier name kind) next ih
  | fresh hint kind next ih => exact ask (.fresh hint kind) next ih
  | helper key lines next ih => exact ask (.helper key lines) next ih
  | define key text next ih => exact ask (.define key text) (fun _ => next) fun _ => ih
  | surround code next ih => exact ask (.surround code) next ih

lemma ask_bind (q : Question) (next : String → Plan α) (f : α → Plan β) :
    ask q next >>= f = ask q fun answer => next answer >>= f := by
  cases q <;> rfl

lemma run_ask (q : Question) (next : String → Plan α) :
    (ask q next).run indent services =
      q.answer indent services >>= fun answer => (next answer).run indent services := by
  cases q <;> rfl

/-- A plan that puts a question and gives a result has been given an answer. -/
lemma exists_of_run_ask (h : ((ask q next).run indent services).run s = .ok a t) :
    ∃ answer u, (q.answer indent services).run s = .ok answer u ∧
      ((next answer).run indent services).run u = .ok a t :=
  Running.exists_of_run_bind (run_ask q next ▸ h)

lemma exists_of_run_plan (h : ((p >>= f).run indent services).run s = .ok b t) :
    ∃ a u, (p.run indent services).run s = .ok a u ∧
      ((f a).run indent services).run u = .ok b t :=
  Running.exists_of_run_bind ((run_bind indent services p f) ▸ h)

/-! ### Exchanges -/

/-- A question that is put in a state, and what comes after its answer. -/
def exchangesOf (indent : String) (services : Services) (q : Question) (s : Run)
    (rest : String → Run → List Exchange) : List Exchange :=
  match (q.answer indent services).run s with
  | .ok answer t => ⟨q, answer, s, t⟩ :: rest answer t
  | .error .. => []

/-- The exchanges of a plan that is carried out from a state, in their order. -/
def exchanges (indent : String) (services : Services) : Plan α → Run → List Exchange
  | .done _, _ => []
  | .fail _, _ => []
  | .expression socket required default next, s =>
    exchangesOf indent services (.expression socket required default) s fun answer t =>
      (next answer).exchanges indent services t
  | .statements socket next, s =>
    exchangesOf indent services (.statements socket) s fun answer t =>
      (next answer).exchanges indent services t
  | .identifier name kind next, s =>
    exchangesOf indent services (.identifier name kind) s fun answer t =>
      (next answer).exchanges indent services t
  | .fresh hint kind next, s =>
    exchangesOf indent services (.fresh hint kind) s fun answer t =>
      (next answer).exchanges indent services t
  | .helper key lines next, s =>
    exchangesOf indent services (.helper key lines) s fun answer t =>
      (next answer).exchanges indent services t
  | .define key text next, s =>
    exchangesOf indent services (.define key text) s fun _ t => next.exchanges indent services t
  | .surround code next, s =>
    exchangesOf indent services (.surround code) s fun answer t =>
      (next answer).exchanges indent services t

lemma exchanges_ask (q : Question) (next : String → Plan α) (s : Run) :
    (ask q next).exchanges indent services s =
      exchangesOf indent services q s fun answer t =>
        (next answer).exchanges indent services t := by
  cases q <;> rfl

lemma exchanges_ask_of_ok (h : (q.answer indent services).run s = .ok answer u) :
    (ask q next).exchanges indent services s =
      ⟨q, answer, s, u⟩ :: (next answer).exchanges indent services u := by
  rw [exchanges_ask, exchangesOf, h]

/-- The exchanges of a plan that goes on with another are those of the one and of the other. -/
lemma exchanges_bind (h : (p.run indent services).run s = .ok a u) (f : α → Plan β) :
    (p >>= f).exchanges indent services s =
      p.exchanges indent services s ++ (f a).exchanges indent services u := by
  induction p using ask_induction generalizing s with
  | done a' =>
      obtain ⟨rfl, rfl⟩ := EStateM.Result.ok.inj h
      rfl
  | fail fault => exact nomatch h
  | ask q next ih =>
      obtain ⟨answer, v, hanswer, hrest⟩ := exists_of_run_ask h
      rw [ask_bind, exchanges_ask_of_ok hanswer, exchanges_ask_of_ok hanswer, ih answer hrest,
        List.cons_append]

/-- Every exchange is what comes of its question in the state before it. -/
lemma run_answer_of_mem_exchanges {e : Exchange} (h : e ∈ p.exchanges indent services s) :
    (e.question.answer indent services).run e.before = .ok e.answer e.after := by
  induction p using ask_induction generalizing s with
  | done a => exact nomatch h
  | fail fault => exact nomatch h
  | ask q next ih =>
      rw [exchanges_ask, exchangesOf] at h
      cases hanswer : (q.answer indent services).run s with
      | error fault t =>
          rw [hanswer] at h
          exact nomatch h
      | ok answer t =>
          rw [hanswer] at h
          rcases List.mem_cons.mp h with rfl | h
          · exact hanswer
          · exact ih answer h

/-- A relation of states that holds around every exchange holds from the first state to every other
and from there to the last. -/
lemma related_of_exchanges {L : Run → Run → Prop} (hrefl : ∀ s, L s s)
    (htrans : ∀ s t u, L s t → L t u → L s u)
    (hexchanges : ∀ e ∈ p.exchanges indent services s, L e.before e.after)
    (hrun : (p.run indent services).run s = .ok a t) :
    L s t ∧ ∀ e ∈ p.exchanges indent services s, L s e.before ∧ L e.after t := by
  induction p using ask_induction generalizing s with
  | done a' =>
      obtain ⟨-, rfl⟩ := EStateM.Result.ok.inj hrun
      exact ⟨hrefl s, nofun⟩
  | fail fault => exact nomatch hrun
  | ask q next ih =>
      obtain ⟨answer, u, hanswer, hrest⟩ := exists_of_run_ask hrun
      rw [exchanges_ask_of_ok hanswer] at hexchanges ⊢
      rw [List.forall_mem_cons] at hexchanges
      obtain ⟨hlast, hothers⟩ := ih answer hexchanges.2 hrest
      have hfirst : L s u := hexchanges.1
      refine ⟨htrans s u t hfirst hlast, List.forall_mem_cons.mpr ⟨⟨hrefl s, hlast⟩, ?_⟩⟩
      exact fun e he => ⟨htrans s u _ hfirst (hothers e he).1, (hothers e he).2⟩

end Plan

end Blockscribe
