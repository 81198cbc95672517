/-
Where the code of a block goes.

* `Renderer.Writes`: the definitions that the blocks of a run write.
* `Within.bears`: what holds of code, and lasts when something is put around it and when it is
  indented, holds of a text in which the code stands.
* `Carries.bears`: code that a block is told is in its outcome, or in a definition that it writes.
* `Reaches.bears`: so the code that a block gives is in the body of the program, or in a definition.
-/
import Blockscribe.Proofs.Render.Reaches

namespace Blockscribe

variable {B : String → Prop} {indent code text : String}

/-- What holds of code holds of a text in which the code stands. -/
lemma Within.bears (hB : Bearing B) (hled : ∀ code, B code → B (leadLines indent code))
    (h : Within indent code text) (hcode : B code) : B text := by
  obtain ⟨before, after, rfl | rfl⟩ := h
  · exact hB.around hcode before after
  · exact hB.around (hled code hcode) before after

lemma Surrounds.bears (hB : Bearing B) (h : Surrounds code text) (hcode : B code) : B text := by
  obtain ⟨comments, rest, -, rfl⟩ := h
  exact hB.around hcode comments rest

lemma Outcome.hasCode_of_ne_empty {outcome : Outcome} (h : outcome.code ≠ "") :
    outcome.HasCode := by
  cases outcome with
  | value code rank => exact trivial
  | statement code => exact trivial
  | nothing | other => exact h rfl

namespace Renderer

variable {r : Renderer} {b c : Block} {s s₀ t u v : Run} {body : String} {piece : Piece}
  {outcome : Outcome} {handler : Handler} {e : Exchange} {q : Question}

/-- A definition that a block writes when its plan is carried out. -/
def Writes (r : Renderer) (s₀ : Run) (key text : String) : Prop :=
  ∃ b s, r.Reaches s₀ b s ∧ b.disabled = false ∧ ∃ e ∈ r.exchanges b s, e.question = .define key text

lemma isCode_of_fetches (h : r.Fetches b q c) : q.IsCode := by
  cases q with
  | expression | statements | surround => exact trivial
  | identifier | fresh | helper | define => exact h.elim

variable (hB : Bearing B)

include hB

lemma bears_complete (houtcome : B outcome.code)
    (h : (r.complete b outcome).run v = .ok piece u) : B piece.code := by
  obtain ⟨comments, next, rest, -, -, hcode⟩ :=
    exists_of_run_complete (Outcome.hasCode_of_ne_empty (hB.ne_empty houtcome)) h
  rw [hcode]
  exact hB.around houtcome comments rest

variable (hr : r.handlers = Handler.standard) (hdialect : r.style.dialect ∈ Dialect.all)

include hr hdialect

omit hB in
/-- What a block asks for is what a standard handler may ask for. -/
lemma Carries.allowed (h : r.Carries s₀ t b s handler outcome v) (he : e ∈ r.exchanges b s)
    (hown : e.question.IsOwn) : Question.Allowed r.workspace.written e.question := by
  have hconveys : (handler r.site b.face).Conveys r.workspace.written fun _ => False :=
    Handler.conveys_of_resolve bearing_false (hr ▸ h.resolve) Workspace.written_declared
      (Workspace.written_face h.mem)
  rw [h.exchanges] at he
  exact (hconveys.of_run (fun _ _ _ => id)
    (fun _ _ _ _ hfull => surrounds_of_run hdialect hfull) h.run).1 e he hown

/-- The code that a block is told is in its outcome, or in a definition. -/
lemma Carries.bears (h : r.Carries s₀ t b s handler outcome v) (he : e ∈ r.exchanges b s)
    (hcode : e.question.IsCode) (hanswer : B e.answer) :
    B outcome.code ∨ ∃ e ∈ r.exchanges b s, ∃ key text, e.question = .define key text ∧ B text := by
  have hconveys : (handler r.site b.face).Conveys r.workspace.written B :=
    Handler.conveys_of_resolve hB (hr ▸ h.resolve) Workspace.written_declared
      (Workspace.written_face h.mem)
  rw [h.exchanges] at he ⊢
  exact (hconveys.of_run (fun _ _ hfull => hfull.bears hB)
    (fun _ _ _ _ hfull => surrounds_of_run hdialect hfull) h.run).2 (.inr ⟨e, he, hcode, hanswer⟩)

variable (hled : ∀ code, B code → B (leadLines r.style.indent code))
  (hvalid : r.workspace.validate = .ok ()) (hrun : r.renderTops.run s₀ = .ok body t)

include hled hvalid hrun

/-- **No code gets lost.** What holds of the code that a block gives when it is reached, and lasts
when something is put around the code and when it is indented, holds of the body of the program or
of a definition that a block writes. -/
theorem Reaches.bears (h : r.Reaches s₀ b s) (hpiece : (r.render b).run s = .ok piece u)
    (hcode : B piece.code) : B body ∨ ∃ key text, r.Writes s₀ key text ∧ B text := by
  -- the block that asks for the code, or that it follows, gives code with the property as well
  induction h generalizing piece u with
  | @top before after b texts s htop hbefore =>
      obtain ⟨piece', u', more, hpiece', -, rfl⟩ := exists_of_run_renderTops hrun htop hbefore
      obtain ⟨rfl, rfl⟩ := EStateM.Result.ok.inj (hpiece.symm.trans hpiece')
      have htext : B (topText piece) := by
        cases piece with
        | statement code => exact hcode
        | value code grade =>
            rw [topText, if_neg (show code ≠ "" from hB.ne_empty hcode)]
            exact hB.append (.inl hcode)
      refine .inl (Handler.bears_intercalate hB ⟨_, List.mem_filter.mpr ⟨?_, ?_⟩, htext⟩ "\n")
      · exact List.mem_append_right _ List.mem_cons_self
      · exact decide_eq_true (hB.ne_empty htext)
  | @passed b c s hreaches hdisabled hnext ih =>
      obtain ⟨hb, -⟩ := hreaches.finishes hvalid hr hdialect hrun
      rw [← run_render_of_disabled hvalid hb hdisabled hnext] at hpiece
      exact ih hpiece hcode
  | @asked b c s e hreaches henabled he hfetches ih =>
      obtain ⟨hb, hbefore, piece', u', hpiece', hafter⟩ :=
        hreaches.finishes hvalid hr hdialect hrun
      obtain ⟨handler, outcome, v, hcarries, hcomplete⟩ :=
        carries_of_run_render hvalid hr hdialect hb henabled hbefore hpiece' hafter
      obtain ⟨fetched, hfetched, hwithin⟩ := exists_of_fetches hfetches (hcarries.answers he)
      obtain ⟨rfl, -⟩ := EStateM.Result.ok.inj (hpiece.symm.trans hfetched)
      have hanswer : B e.answer := (hwithin (hB.ne_empty hcode)).bears hB hled hcode
      rcases hcarries.bears hB hr hdialect he (isCode_of_fetches hfetches) hanswer with
        houtcome | ⟨e', he', key, text, hquestion, htext⟩
      · exact ih hpiece' (bears_complete hB houtcome hcomplete)
      · exact .inr ⟨key, text, ⟨b, s, hreaches, henabled, e', he', hquestion⟩, htext⟩
  | @followed b c s v outcome hreaches henabled houtcome hhas hnext ih =>
      obtain ⟨hb, hbefore, piece', u', hpiece', hafter⟩ :=
        hreaches.finishes hvalid hr hdialect hrun
      obtain ⟨handler, outcome', v', hcarries, hcomplete⟩ :=
        carries_of_run_render hvalid hr hdialect hb henabled hbefore hpiece' hafter
      obtain ⟨rfl, rfl⟩ := EStateM.Result.ok.inj (houtcome.symm.trans hcarries.outcome)
      obtain ⟨comments, next, rest, hnext', hrest, hwhole⟩ := exists_of_run_complete hhas hcomplete
      obtain rfl := Except.ok.inj (hnext.symm.trans hnext')
      obtain ⟨rfl, -⟩ := EStateM.Result.ok.inj (hpiece.symm.trans hrest)
      refine ih hpiece' ?_
      rw [hwhole]
      exact hB.append (.inr hcode)

end Renderer

end Blockscribe
