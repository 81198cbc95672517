/-
The calls of a run, whether it succeeds or not.

* `Plan.Puts`: the questions that a plan comes to put, and the states in which it puts them.
* `Renderer.Calls`: the blocks that a run comes to render, and the states in which it does.
* `Renderer.taken`: the answer that is made of a fetched block; `answer_eq` says that this is how
  questions are answered.
* `Calls.run_of_error`: a call that ends with a fault ends the run with it.
* `Calls.exists_of_run`: so in a run that succeeds every call gives a piece of code.
-/
import Blockscribe.Proofs.Render.Reaches

namespace Blockscribe

lemma Running.run_bind_of_error {α β : Type} {m : Running α} {f : α → Running β} {s t : Run}
    {fault : Fault} (h : m.run s = .error fault t) : (m >>= f).run s = .error fault t := by
  rw [EStateM.run_bind, h]

/-! ### Questions of a plan -/

namespace Plan

variable {α : Type} {indent : String} {services : Services} {p : Plan α} {q : Question}
  {s t u : Run} {fault : Fault} {a : α}

/-- A plan that is carried out from a state comes to put a question in another one. -/
inductive Puts (indent : String) (services : Services) : Plan α → Run → Question → Run → Prop
  | here {q : Question} {next : String → Plan α} {s : Run} : Puts indent services (ask q next) s q s
  | later {q q' : Question} {next : String → Plan α} {s t u : Run} {answer : String} :
      (q.answer indent services).run s = .ok answer t →
      Puts indent services (next answer) t q' u → Puts indent services (ask q next) s q' u

/-- A question whose answer fails ends the plan with that fault. -/
lemma Puts.run_of_error (h : p.Puts indent services s q u)
    (hq : (q.answer indent services).run u = .error fault t) :
    (p.run indent services).run s = .error fault t := by
  induction h with
  | here =>
      rw [run_ask]
      exact Running.run_bind_of_error hq
  | later hanswer _ ih =>
      rw [run_ask, Running.run_bind_of_ok hanswer]
      exact ih hq

/-- In a plan that gives a result every question has been answered. -/
lemma Puts.exists_answer (h : p.Puts indent services s q u)
    (hrun : (p.run indent services).run s = .ok a t) :
    ∃ answer v, (q.answer indent services).run u = .ok answer v := by
  cases hq : (q.answer indent services).run u with
  | ok answer v => exact ⟨answer, v, rfl⟩
  | error fault v => exact nomatch hrun.symm.trans (h.run_of_error hq)

end Plan

/-! ### Calls -/

/-- The piece of an outcome with code, which stands among other code. -/
def Outcome.piece (full : String) : Outcome → Piece
  | value _ grade => .value full grade
  | _ => .statement full

namespace Renderer

/-- What a question needs of the comments of a block. -/
def Remarks (r : Renderer) (b : Block) (q : Question) (comments : String) : Prop :=
  ∀ code, q = .surround code → r.commentsFor b = .ok comments

/-- The blocks that rendering the top-level blocks comes to, with the states in which it does: each
top-level block after those before it, what follows a disabled block, the block that is fetched for
a question, and what follows a block that has given code. -/
inductive Calls (r : Renderer) (s₀ : Run) : Block → Run → Prop
  | top {before after : List Block} {b : Block} {texts : List String} {s : Run} :
      r.workspace.topBlocks = before ++ b :: after →
      (before.mapM fun b => do return topText (← r.render b)).run s₀ = .ok texts s →
      Calls r s₀ b s
  | passed {b c : Block} {s : Run} : Calls r s₀ b s → b.disabled = true →
      r.workspace.nextOf b = .ok (some c) → Calls r s₀ c s
  | asked {b c : Block} {s u : Run} {handler : Handler} {q : Question} {comments : String} :
      Calls r s₀ b s → b.disabled = false → r.handlers.resolve b.type = .ok handler →
      (handler r.site b.face).Puts r.style.indent (r.services r.render b) s q u →
      r.Fetches b q c → r.Remarks b q comments → Calls r s₀ c u
  | followed {b c : Block} {s u : Run} {outcome : Outcome} {comments : String} : Calls r s₀ b s →
      b.disabled = false → (r.outcome b).run s = .ok outcome u → outcome.HasCode →
      r.workspace.nextOf b = .ok (some c) → r.commentsFor b = .ok comments → Calls r s₀ c u

/-- The answer that is made of what a block is rendered to which is fetched for a question. -/
def taken (r : Renderer) (b c : Block) (comments : String) : Question → Piece → Except Fault String
  | .expression name required default, piece => piece.asOperand c.type name required default
  | .statements name, piece => piece.asBody c.type name r.style.indent
  | .surround code, piece => (piece.asRest b.type).map fun rest => comments ++ code ++ rest
  | _, _ => .ok ""

variable {r : Renderer} {b c : Block} {s s₀ t u v : Run} {q : Question} {fault : Fault}
  {comments body : String} {handler : Handler} {outcome : Outcome} {piece : Piece}

/-- A question about a block is answered by rendering it. -/
lemma answer_eq (hfetches : r.Fetches b q c) (hremarks : r.Remarks b q comments) :
    q.answer r.style.indent (r.services r.render b) =
      r.render c >>= fun piece => Running.ofExcept (r.taken b c comments q piece) := by
  cases q with
  | expression name required default =>
      refine (r.expression_eq r.render b name required default).trans ?_
      rw [show r.target? b name .value = .ok (some c) from hfetches]
      rfl
  | statements name =>
      refine (r.statements_eq r.render b name).trans ?_
      rw [show r.target? b name .statement = .ok (some c) from hfetches]
      rfl
  | surround code =>
      refine (r.surround_eq r.render b code).trans ?_
      rw [hremarks code rfl, show r.workspace.nextOf b = .ok (some c) from hfetches]
      refine congrArg (r.render c >>= ·) (funext fun piece => ?_)
      cases piece <;> rfl
  | identifier | fresh | helper | define => exact hfetches.elim

/-- Code is put between comments and what follows. -/
lemma complete_eq (hcode : outcome.HasCode) : r.complete b outcome =
    (Question.surround outcome.code).answer r.style.indent (r.services r.render b) >>= fun full =>
      pure (outcome.piece full) := by
  cases outcome with
  | value code grade => rfl
  | statement code => rfl
  | nothing | other => exact hcode.elim

/-- A plan that fails is a block that fails. -/
lemma run_render_of_plan_error (hvalid : r.workspace.validate = .ok ())
    (hb : b ∈ r.workspace.blocks) (henabled : b.disabled = false)
    (hresolve : r.handlers.resolve b.type = .ok handler)
    (h : ((handler r.site b.face).run r.style.indent (r.services r.render b)).run s =
      .error fault t) : (r.render b).run s = .error fault t := by
  rw [render_eq_outcome hvalid hb henabled, outcome, hresolve]
  exact Running.run_bind_of_error h

/-- So is code whose surroundings fail. -/
lemma run_render_of_complete_error (hvalid : r.workspace.validate = .ok ())
    (hb : b ∈ r.workspace.blocks) (henabled : b.disabled = false)
    (houtcome : (r.outcome b).run s = .ok outcome u)
    (h : (r.complete b outcome).run u = .error fault t) : (r.render b).run s = .error fault t := by
  rw [render_eq_outcome hvalid hb henabled, Running.run_bind_of_ok houtcome]
  exact h

lemma Calls.mem (h : r.Calls s₀ b s) : b ∈ r.workspace.blocks := by
  cases h with
  | top htop =>
      refine (Workspace.mem_topBlocks_iff.mp ?_).1
      rw [htop]
      exact List.mem_append_right _ List.mem_cons_self
  | passed _ _ hnext => exact (Workspace.enters_of_nextOf hnext).mem
  | asked _ _ _ _ hfetches => exact (enters_of_fetches hfetches).mem
  | followed _ _ _ _ hnext => exact (Workspace.enters_of_nextOf hnext).mem

section Ends

variable (hvalid : r.workspace.validate = .ok ())

include hvalid

/-- A question that fails ends the block that puts it. -/
lemma run_render_of_puts (hb : b ∈ r.workspace.blocks) (henabled : b.disabled = false)
    (hresolve : r.handlers.resolve b.type = .ok handler)
    (hputs : (handler r.site b.face).Puts r.style.indent (r.services r.render b) s q u)
    (h : (q.answer r.style.indent (r.services r.render b)).run u = .error fault t) :
    (r.render b).run s = .error fault t :=
  run_render_of_plan_error hvalid hb henabled hresolve (hputs.run_of_error h)

/-- **A call that ends with a fault ends the run with it.** -/
theorem Calls.run_of_error (h : r.Calls s₀ b s) (herror : (r.render b).run s = .error fault t) :
    r.renderTops.run s₀ = .error fault t := by
  -- by induction on the calls that lead to it
  induction h with
  | top htop hbefore =>
      rw [renderTops, htop, List.mapM_append, bind_assoc, Running.run_bind_of_ok hbefore,
        List.mapM_cons]
      exact Running.run_bind_of_error (Running.run_bind_of_error (Running.run_bind_of_error
        (Running.run_bind_of_error herror)))
  | passed hcalls hdisabled hnext ih =>
      exact ih ((run_render_of_disabled hvalid hcalls.mem hdisabled hnext) ▸ herror)
  | asked hcalls henabled hresolve hputs hfetches hremarks ih =>
      refine ih (run_render_of_puts hvalid hcalls.mem henabled hresolve hputs ?_)
      rw [answer_eq hfetches hremarks]
      exact Running.run_bind_of_error herror
  | followed hcalls henabled houtcome hcode hnext hcomments ih =>
      refine ih (run_render_of_complete_error hvalid hcalls.mem henabled houtcome ?_)
      rw [complete_eq hcode, answer_eq (q := .surround _) hnext fun _ _ => hcomments]
      exact Running.run_bind_of_error (Running.run_bind_of_error herror)

/-- In a run that succeeds every call gives a piece of code. -/
theorem Calls.exists_of_run (h : r.Calls s₀ b s) (hrun : r.renderTops.run s₀ = .ok body t) :
    ∃ piece u, (r.render b).run s = .ok piece u := by
  cases hrender : (r.render b).run s with
  | ok piece u => exact ⟨piece, u, rfl⟩
  | error fault u => exact nomatch hrun.symm.trans (h.run_of_error hvalid hrender)

end Ends

end Renderer

end Blockscribe
