/-
The blocks that are rendered in a run, and the states in which that begins.

* `Renderer.exchanges`: the exchanges of the plan of a block.
* `Renderer.Fetches`: the block that a question of another is about.
* `Renderer.Reaches`: the calls that rendering the top-level blocks comes to, each with the block
  and the state in which it is entered.
* `exists_reaches_of_mem`: every top-level block is reached.
* `Reaches.finishes`: in a run that succeeds each of these calls gives a piece of code, and the
  states before and after it are states of the run.
* `Reaches.carries`: an enabled block that is reached has had its plan carried out; `Carries` says
  with which outcome, and that its exchanges lie between two states of the run.
-/
import Blockscribe.Proofs.Render.Advances
import Blockscribe.Proofs.Render.Bodies

namespace Blockscribe

/-- Whether there is code to put comments and statements around. -/
def Outcome.HasCode : Outcome → Prop
  | value .. | statement .. => True
  | _ => False

/-- Code as it stands inside another text, as it is or indented. -/
def Within (indent code text : String) : Prop :=
  ∃ before after, text = before ++ code ++ after ∨ text = before ++ leadLines indent code ++ after

namespace Renderer

/-- The exchanges of the plan of a block that is carried out from a state. -/
def exchanges (r : Renderer) (b : Block) (s : Run) : List Exchange :=
  match r.handlers.resolve b.type with
  | .ok handler =>
    (handler r.site b.face).exchanges r.style.indent (r.services r.render b) s
  | .error _ => []

/-- The block that is rendered to answer a question of another. -/
def Fetches (r : Renderer) (b : Block) : Question → Block → Prop
  | .expression name _ _, c => r.target? b name .value = .ok (some c)
  | .statements name, c => r.target? b name .statement = .ok (some c)
  | .surround _, c => r.workspace.nextOf b = .ok (some c)
  | _, _ => False

/-- What the standard handlers may do leads from one state to the other. -/
abbrev Leads (r : Renderer) : Run → Run → Prop :=
  Run.Later (Question.Allowed r.workspace.written) r.style.indent

/-- A block whose plan has been carried out between two states of a run, and what came of it. -/
structure Carries (r : Renderer) (s₀ t : Run) (b : Block) (s : Run) (handler : Handler)
    (outcome : Outcome) (v : Run) : Prop where
  mem : b ∈ r.workspace.blocks
  resolve : r.handlers.resolve b.type = .ok handler
  run : ((handler r.site b.face).run r.style.indent (r.services r.render b)).run s = .ok outcome v
  exchanges : r.exchanges b s =
    (handler r.site b.face).exchanges r.style.indent (r.services r.render b) s
  outcome : (r.outcome b).run s = .ok outcome v
  before : r.Leads s₀ s
  between : r.Leads s v
  after : r.Leads v t
  exchange : ∀ e ∈ r.exchanges b s, r.Leads s e.before ∧ r.Leads e.before e.after ∧ r.Leads e.after v

/-- The calls that rendering the top-level blocks comes to: one for each of these blocks, one for
what follows a disabled block, one for each question that is answered by a block, and one for what
follows a block that gives code. -/
inductive Reaches (r : Renderer) (s₀ : Run) : Block → Run → Prop
  | top {before after : List Block} {b : Block} {texts : List String} {s : Run} :
      r.workspace.topBlocks = before ++ b :: after →
      (before.mapM fun b => do return topText (← r.render b)).run s₀ = .ok texts s →
      Reaches r s₀ b s
  | passed {b c : Block} {s : Run} : Reaches r s₀ b s → b.disabled = true →
      r.workspace.nextOf b = .ok (some c) → Reaches r s₀ c s
  | asked {b c : Block} {s : Run} {e : Exchange} : Reaches r s₀ b s → b.disabled = false →
      e ∈ r.exchanges b s → r.Fetches b e.question c → Reaches r s₀ c e.before
  | followed {b c : Block} {s u : Run} {outcome : Outcome} : Reaches r s₀ b s →
      b.disabled = false → (r.outcome b).run s = .ok outcome u → outcome.HasCode →
      r.workspace.nextOf b = .ok (some c) → Reaches r s₀ c u

variable {r : Renderer} {b c : Block} {s s₀ t u : Run} {code full answer body : String}
  {piece : Piece} {outcome : Outcome}

/-! ### One call -/

/-- An operand holds the code that it stands for, if there is any. -/
lemma within_of_asOperand {type name default : String} {required : Grade} (hcode : piece.code ≠ "")
    (h : piece.asOperand type name required default = .ok answer) :
    Within r.style.indent piece.code answer := by
  cases piece with
  | statement code =>
      rw [Piece.asOperand, if_neg (show code ≠ "" from hcode)] at h
      cases h
  | value code grade =>
      rw [Piece.asOperand, if_neg (show code ≠ "" from hcode)] at h
      split at h
      · rename_i wrapped hresolve
        obtain rfl := Except.ok.inj h
        rcases eq_or_parenthesized hresolve with rfl | rfl
        · exact ⟨"", "", .inl (by rw [String.empty_append, String.append_empty]; rfl)⟩
        · exact ⟨"(", ")", .inl rfl⟩
      · cases h

/-- What answers a question is made from the block that is fetched for it. -/
lemma exists_of_fetches {q : Question} (hfetches : r.Fetches b q c)
    (h : (q.answer r.style.indent (r.services r.render b)).run s = .ok answer t) :
    ∃ piece, (r.render c).run s = .ok piece t ∧
      (piece.code ≠ "" → Within r.style.indent piece.code answer) := by
  cases q with
  | expression name required default =>
      have hservice : (r.expression r.render b name required default).run s = .ok answer t := h
      rw [expression_eq, show r.target? b name .value = .ok (some c) from hfetches] at hservice
      obtain ⟨_, s', htarget, hfound⟩ := Running.exists_of_run_bind hservice
      obtain ⟨rfl, rfl⟩ := EStateM.Result.ok.inj htarget
      obtain ⟨piece, u, hpiece, hrest⟩ := Running.exists_of_run_bind hfound
      obtain ⟨hoperand, rfl⟩ := Running.eq_ok_of_run_ofExcept hrest
      exact ⟨piece, hpiece, fun hcode => within_of_asOperand hcode hoperand⟩
  | statements name =>
      have hservice : (r.statements r.render b name).run s = .ok answer t := h
      rw [statements_eq, show r.target? b name .statement = .ok (some c) from hfetches] at hservice
      obtain ⟨_, s', htarget, hfound⟩ := Running.exists_of_run_bind hservice
      obtain ⟨rfl, rfl⟩ := EStateM.Result.ok.inj htarget
      obtain ⟨piece, u, hpiece, hrest⟩ := Running.exists_of_run_bind hfound
      obtain ⟨hbody, rfl⟩ := Running.eq_ok_of_run_ofExcept hrest
      refine ⟨piece, hpiece, fun hcode => ?_⟩
      cases piece with
      | value code grade => exact nomatch hbody
      | statement code =>
          rw [Piece.asBody, if_neg (show code ≠ "" from hcode)] at hbody
          refine ⟨"", "", .inr ?_⟩
          rw [String.empty_append, String.append_empty]
          exact (Except.ok.inj hbody).symm
  | surround code =>
      have hservice : (r.surround r.render b code).run s = .ok answer t := h
      obtain ⟨comments, next, rest, -, hnext, hpiece, rfl⟩ := exists_of_run_surround hservice
      obtain rfl := Except.ok.inj (hnext.symm.trans hfetches)
      exact ⟨_, hpiece, fun _ => ⟨comments ++ code, "", .inl (String.append_empty).symm⟩⟩
  | identifier | fresh | helper | define => exact hfetches.elim

/-- The block that is fetched for a question is entered. -/
lemma enters_of_fetches {q : Question} (h : r.Fetches b q c) : r.workspace.Enters b c := by
  cases q with
  | expression name required default => exact enters_of_target? h
  | statements name => exact enters_of_target? h
  | surround code => exact Workspace.enters_of_nextOf h
  | identifier | fresh | helper | define => exact h.elim

/-- What becomes of an outcome with code: comments in front of it, and what follows behind. -/
lemma exists_of_run_complete (hcode : outcome.HasCode)
    (h : (r.complete b outcome).run s = .ok piece t) :
    ∃ comments next rest, r.workspace.nextOf b = .ok next ∧
      (optional r.render next).run s = .ok (.statement rest) t ∧
      piece.code = comments ++ outcome.code ++ rest := by
  cases outcome with
  | value code grade =>
      obtain ⟨full, u, hfull, hrest⟩ := Running.exists_of_run_bind h
      obtain ⟨rfl, rfl⟩ := EStateM.Result.ok.inj hrest
      obtain ⟨comments, next, rest, -, hparts⟩ := exists_of_run_surround hfull
      exact ⟨comments, next, rest, hparts⟩
  | statement code =>
      obtain ⟨full, u, hfull, hrest⟩ := Running.exists_of_run_bind h
      obtain ⟨rfl, rfl⟩ := EStateM.Result.ok.inj hrest
      obtain ⟨comments, next, rest, -, hparts⟩ := exists_of_run_surround hfull
      exact ⟨comments, next, rest, hparts⟩
  | nothing | other => exact hcode.elim

/-- A disabled block is rendered to what follows it. -/
lemma run_render_of_disabled (hvalid : r.workspace.validate = .ok ()) (hb : b ∈ r.workspace.blocks)
    (hdisabled : b.disabled = true) (hnext : r.workspace.nextOf b = .ok (some c)) :
    r.render b = r.render c := by
  rw [render_eq_step hvalid hb, step, if_pos hdisabled, hnext]
  rfl

/-- An enabled block that gives a piece has done so by its plan. -/
lemma exists_plan_of_run_render (hvalid : r.workspace.validate = .ok ())
    (hb : b ∈ r.workspace.blocks) (henabled : b.disabled = false)
    (h : (r.render b).run s = .ok piece u) :
    ∃ handler outcome v, r.handlers.resolve b.type = .ok handler ∧
      ((handler r.site b.face).run r.style.indent (r.services r.render b)).run s = .ok outcome v ∧
      r.exchanges b s =
        (handler r.site b.face).exchanges r.style.indent (r.services r.render b) s ∧
      (r.outcome b).run s = .ok outcome v ∧ (r.complete b outcome).run v = .ok piece u := by
  obtain ⟨outcome, v, houtcome, hcomplete⟩ := exists_of_run_render hvalid hb henabled h
  obtain ⟨handler, s', hfirst, hplan⟩ := Running.exists_of_run_bind houtcome
  obtain ⟨hresolve, rfl⟩ := Running.eq_ok_of_run_ofExcept hfirst
  refine ⟨handler, outcome, v, hresolve, hplan, ?_, houtcome, hcomplete⟩
  rw [exchanges, hresolve]

variable {handler : Handler} {v : Run} {e : Exchange}

lemma Carries.answers (h : r.Carries s₀ t b s handler outcome v) (he : e ∈ r.exchanges b s) :
    (e.question.answer r.style.indent (r.services r.render b)).run e.before =
      .ok e.answer e.after :=
  Plan.run_answer_of_mem_exchanges (h.exchanges ▸ he)

/-- A definition that is written is there. -/
lemma Carries.get?_of_define {key text : String} (h : r.Carries s₀ t b s handler outcome v)
    (he : e ∈ r.exchanges b s) (hquestion : e.question = .define key text) :
    e.after.definitions.get? key = some text := by
  have hanswer := h.answers he
  rw [hquestion] at hanswer
  obtain ⟨-, hstate⟩ := EStateM.Result.ok.inj hanswer
  rw [← hstate]
  exact (Definitions.get?_put _ key key text).trans (if_pos rfl)

/-- The states around an exchange are states of the run. -/
lemma Carries.leads (h : r.Carries s₀ t b s handler outcome v) (he : e ∈ r.exchanges b s) :
    r.Leads s₀ e.before ∧ r.Leads e.before e.after ∧ r.Leads e.after t := by
  obtain ⟨hbefore, hbetween, hafter⟩ := h.exchange e he
  exact ⟨h.before.trans hbefore, hbetween, hafter.trans h.after⟩

/-! ### All calls -/

/-- The code that a block gives stands among that of the top-level blocks. -/
lemma exists_of_run_renderTops {before after : List Block} {texts : List String}
    (hrun : r.renderTops.run s₀ = .ok body t) (htop : r.workspace.topBlocks = before ++ b :: after)
    (hbefore : (before.mapM fun b => do return topText (← r.render b)).run s₀ = .ok texts s) :
    ∃ piece u more, (r.render b).run s = .ok piece u ∧
      (after.mapM fun b => do return topText (← r.render b)).run u = .ok more t ∧
      body = "\n".intercalate ((texts ++ topText piece :: more).filter fun text => text ≠ "") := by
  obtain ⟨all, t', hall, hbody⟩ := Running.exists_of_run_bind hrun
  obtain ⟨rfl, rfl⟩ := EStateM.Result.ok.inj hbody
  rw [htop, List.mapM_append] at hall
  obtain ⟨texts', s', hfirst, hothers⟩ := Running.exists_of_run_bind hall
  obtain ⟨rfl, rfl⟩ := EStateM.Result.ok.inj (hbefore.symm.trans hfirst)
  obtain ⟨rest, t', hrest, happend⟩ := Running.exists_of_run_bind hothers
  obtain ⟨rfl, rfl⟩ := EStateM.Result.ok.inj happend
  rw [List.mapM_cons] at hrest
  obtain ⟨text, u, htext, hlater⟩ := Running.exists_of_run_bind hrest
  obtain ⟨more, u', hmore, hcons⟩ := Running.exists_of_run_bind hlater
  obtain ⟨rfl, rfl⟩ := EStateM.Result.ok.inj hcons
  obtain ⟨piece, v, hpiece, hlast⟩ := Running.exists_of_run_bind htext
  obtain ⟨rfl, rfl⟩ := EStateM.Result.ok.inj hlast
  exact ⟨piece, _, more, hpiece, hmore, rfl⟩

/-- In a run that succeeds every top-level block is reached. -/
lemma exists_reaches_of_mem (hrun : r.renderTops.run s₀ = .ok body t)
    (hb : b ∈ r.workspace.topBlocks) : ∃ s, r.Reaches s₀ b s := by
  obtain ⟨before, after, htop⟩ := List.append_of_mem hb
  obtain ⟨texts, u, hall, -⟩ := Running.exists_of_run_bind hrun
  rw [htop, List.mapM_append] at hall
  obtain ⟨first, s, hbefore, -⟩ := Running.exists_of_run_bind hall
  exact ⟨s, .top htop hbefore⟩

section Calls

variable (hvalid : r.workspace.validate = .ok ()) (hr : r.handlers = Handler.standard)
  (hdialect : r.style.dialect ∈ Dialect.all)

include hvalid hr hdialect

/-- An enabled block that gives a piece has done so by its plan, and by what became of its outcome.
-/
lemma carries_of_run_render (hb : b ∈ r.workspace.blocks) (henabled : b.disabled = false)
    (hbefore : r.Leads s₀ s) (h : (r.render b).run s = .ok piece u) (hafter : r.Leads u t) :
    ∃ handler outcome v, r.Carries s₀ t b s handler outcome v ∧
      (r.complete b outcome).run v = .ok piece u := by
  have hbelow : ∀ c, r.workspace.Enters b c → Running.Advances
      (Question.Allowed r.workspace.written) r.style.indent (r.render c) := fun c hc =>
    advances_render hr hdialect hc.mem
  obtain ⟨handler, outcome, v, hresolve, hplan, hexchanges, houtcome, hcomplete⟩ :=
    exists_plan_of_run_render hvalid hb henabled h
  obtain ⟨hlater, hall⟩ := later_of_plan hr hdialect Workspace.written_declared
    (Workspace.written_face hb) hbelow hresolve hplan
  have hend : r.Leads v u := by
    cases outcome with
    | value code grade =>
        exact (Running.Advances.bind (advances_surround hbelow code)
          fun _ => Running.advances_pure _) _ _ _ hcomplete
    | statement code =>
        exact (Running.Advances.bind (advances_surround hbelow code)
          fun _ => Running.advances_pure _) _ _ _ hcomplete
    | nothing => exact Running.advances_pure _ _ _ _ hcomplete
    | other kindName => exact nomatch hcomplete
  refine ⟨handler, outcome, v, ⟨hb, hresolve, hplan, hexchanges, houtcome, hbefore, hlater,
    hend.trans hafter, ?_⟩, hcomplete⟩
  rw [hexchanges]
  exact hall

variable (hrun : r.renderTops.run s₀ = .ok body t)

include hrun

/-- In a run that succeeds every call gives a piece of code, and the states before and after it are
states of the run. -/
theorem Reaches.finishes (h : r.Reaches s₀ b s) :
    b ∈ r.workspace.blocks ∧ r.Leads s₀ s ∧
      ∃ piece u, (r.render b).run s = .ok piece u ∧ r.Leads u t := by
  have htops : ∀ blocks : List Block, blocks ⊆ r.workspace.topBlocks → Running.Advances
      (Question.Allowed r.workspace.written) r.style.indent
      (blocks.mapM fun b => do return topText (← r.render b)) := by
    intro blocks hblocks
    refine Running.advances_mapM fun c hc => ?_
    have hmem := (Workspace.mem_topBlocks_iff.mp (hblocks hc)).1
    exact (advances_render hr hdialect hmem).bind fun _ => Running.advances_pure _
  induction h with
  | @top before after b texts s htop hbefore =>
      obtain ⟨piece, u, more, hpiece, hmore, -⟩ := exists_of_run_renderTops hrun htop hbefore
      have hb : b ∈ r.workspace.topBlocks := by
        rw [htop]
        exact List.mem_append_right _ List.mem_cons_self
      refine ⟨(Workspace.mem_topBlocks_iff.mp hb).1, htops before ?_ _ _ _ hbefore, piece, u,
        hpiece, htops after ?_ _ _ _ hmore⟩
      · rw [htop]
        exact List.subset_append_left _ _
      · rw [htop]
        exact fun c hc => List.mem_append_right _ (List.mem_cons_of_mem _ hc)
  | passed _ hdisabled hnext ih =>
      obtain ⟨hb, hlater, piece, u, hpiece, hend⟩ := ih
      rw [run_render_of_disabled hvalid hb hdisabled hnext] at hpiece
      exact ⟨(Workspace.enters_of_nextOf hnext).mem, hlater, piece, u, hpiece, hend⟩
  | @asked b c s e _ henabled he hfetches ih =>
      obtain ⟨hb, hlater, piece, u, hpiece, hend⟩ := ih
      obtain ⟨handler, outcome, v, hcarries, -⟩ :=
        carries_of_run_render hvalid hr hdialect hb henabled hlater hpiece hend
      obtain ⟨hbefore, -, hafter⟩ := hcarries.exchange e he
      obtain ⟨piece', hpiece', -⟩ := exists_of_fetches hfetches (hcarries.answers he)
      exact ⟨(enters_of_fetches hfetches).mem, hlater.trans hbefore, piece', e.after, hpiece',
        hafter.trans hcarries.after⟩
  | @followed b c s v outcome _ henabled houtcome hcode hnext ih =>
      obtain ⟨hb, hlater, piece, u, hpiece, hend⟩ := ih
      obtain ⟨handler, outcome', v', hcarries, hcomplete⟩ :=
        carries_of_run_render hvalid hr hdialect hb henabled hlater hpiece hend
      obtain ⟨rfl, rfl⟩ := EStateM.Result.ok.inj (houtcome.symm.trans hcarries.outcome)
      obtain ⟨comments, next, rest, hnext', hrest, -⟩ := exists_of_run_complete hcode hcomplete
      obtain rfl := Except.ok.inj (hnext.symm.trans hnext')
      exact ⟨(Workspace.enters_of_nextOf hnext).mem, hlater.trans hcarries.between, _, u, hrest,
        hend⟩

/-- The plan of an enabled block that is reached has been carried out. -/
theorem Reaches.carries (h : r.Reaches s₀ b s) (henabled : b.disabled = false) :
    ∃ handler outcome v, r.Carries s₀ t b s handler outcome v := by
  obtain ⟨hb, hbefore, piece, u, hpiece, hafter⟩ := h.finishes hvalid hr hdialect hrun
  obtain ⟨handler, outcome, v, hcarries, -⟩ :=
    carries_of_run_render hvalid hr hdialect hb henabled hbefore hpiece hafter
  exact ⟨handler, outcome, v, hcarries⟩

end Calls

end Renderer

end Blockscribe
