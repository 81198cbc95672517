/-
Everything that changes in a run is asked for by a block that is rendered.

* `Renderer.Asked`: the questions that the blocks of a run put.
* `Renderer.Accounts`: a block that changes only what is asked for; `accounts_step` says that it does
  so if the blocks that it enters do.
* `later_asked`: from the first state of a run to its last every change is one that such a question
  asks for.
* `Asked.allowed`: with the standard handlers these are what they may ask for.
-/
import Blockscribe.Proofs.Render.Bears

namespace Blockscribe.Renderer

variable {r : Renderer} {b : Block} {s s₀ t u : Run} {q : Question} {answer body : String}
  {piece : Piece}

/-- A question that a block puts which is rendered. -/
def Asked (r : Renderer) (s₀ : Run) (q : Question) : Prop :=
  ∃ b s, r.Reaches s₀ b s ∧ b.disabled = false ∧ ∃ e ∈ r.exchanges b s, e.question = q

/-- A question about code is answered by a block, or it changes nothing. -/
lemma exists_fetches_or_eq (hown : ¬ q.IsOwn)
    (h : (q.answer r.style.indent (r.services r.render b)).run s = .ok answer t) :
    (∃ c, r.Fetches b q c) ∨ t = s := by
  cases q with
  | expression name required default =>
      have hservice : (r.expression r.render b name required default).run s = .ok answer t := h
      rw [expression_eq] at hservice
      obtain ⟨target, u, hfirst, hrest⟩ := Running.exists_of_run_bind hservice
      obtain ⟨htarget, rfl⟩ := Running.eq_ok_of_run_ofExcept hfirst
      cases target with
      | none => exact .inr (EStateM.Result.ok.inj hrest).2.symm
      | some c => exact .inl ⟨c, htarget⟩
  | statements name =>
      have hservice : (r.statements r.render b name).run s = .ok answer t := h
      rw [statements_eq] at hservice
      obtain ⟨target, u, hfirst, hrest⟩ := Running.exists_of_run_bind hservice
      obtain ⟨htarget, rfl⟩ := Running.eq_ok_of_run_ofExcept hfirst
      cases target with
      | none => exact .inr (EStateM.Result.ok.inj hrest).2.symm
      | some c => exact .inl ⟨c, htarget⟩
  | surround code =>
      have hservice : (r.surround r.render b code).run s = .ok answer t := h
      obtain ⟨comments, next, rest, -, hnext, hpiece, -⟩ := exists_of_run_surround hservice
      cases next with
      | none => exact .inr (EStateM.Result.ok.inj hpiece).2.symm
      | some c => exact .inl ⟨c, hnext⟩
  | identifier | fresh | helper | define => exact absurd trivial hown

/-- What changes while a block is rendered is asked for, wherever a run enters it. -/
def Accounts (r : Renderer) (s₀ : Run) (b : Block) : Prop :=
  ∀ s piece u, r.Reaches s₀ b s → (r.render b).run s = .ok piece u →
    s.Later (r.Asked s₀) r.style.indent u

section Below

variable (hbelow : ∀ c, r.workspace.Enters b c → r.Accounts s₀ c)

include hbelow

/-- The block that follows changes what is asked for, and none changes nothing. -/
lemma later_next {next : Option Block} (hnext : r.workspace.nextOf b = .ok next)
    (hreaches : ∀ c, next = some c → r.Reaches s₀ c s)
    (hrest : (optional r.render next).run s = .ok piece u) :
    s.Later (r.Asked s₀) r.style.indent u := by
  cases next with
  | none =>
      obtain ⟨-, rfl⟩ := EStateM.Result.ok.inj hrest
      exact .refl _
  | some c => exact hbelow c (Workspace.enters_of_nextOf hnext) _ _ _ (hreaches c rfl) hrest

/-- The question of an exchange asks for what the answer changes, or the block that answers it
does. -/
lemma later_exchange {e : Exchange} (hreaches : r.Reaches s₀ b s) (henabled : b.disabled = false)
    (he : e ∈ r.exchanges b s)
    (hanswer : (e.question.answer r.style.indent (r.services r.render b)).run e.before =
      .ok e.answer e.after) :
    e.before.Later (r.Asked s₀) r.style.indent e.after := by
  by_cases hown : e.question.IsOwn
  · exact Run.later_of_own hown ⟨b, s, hreaches, henabled, e, he, rfl⟩ hanswer
  rcases exists_fetches_or_eq hown hanswer with ⟨c, hfetches⟩ | hsame
  · obtain ⟨fetched, hfetched, -⟩ := exists_of_fetches hfetches hanswer
    exact hbelow c (enters_of_fetches hfetches) _ _ _ (.asked hreaches henabled he hfetches) hfetched
  · rw [hsame]
    exact .refl _

end Below

section Calls

variable (hvalid : r.workspace.validate = .ok ()) (hr : r.handlers = Handler.standard)
  (hdialect : r.style.dialect ∈ Dialect.all) (hrun : r.renderTops.run s₀ = .ok body t)

include hvalid hr hdialect hrun

/-- A block accounts for its changes, if the blocks that it enters do. -/
lemma accounts_step (hbelow : ∀ c, r.workspace.Enters b c → r.Accounts s₀ c) :
    r.Accounts s₀ b := by
  intro s piece u hreaches hpiece
  obtain ⟨hb, -⟩ := hreaches.finishes hvalid hr hdialect hrun
  by_cases hdisabled : b.disabled = true
  · rw [render_eq_step hvalid hb, step, if_pos hdisabled] at hpiece
    obtain ⟨next, v, hfirst, hrest⟩ := Running.exists_of_run_bind hpiece
    obtain ⟨hnext, rfl⟩ := Running.eq_ok_of_run_ofExcept hfirst
    exact later_next hbelow hnext (fun c hc => .passed hreaches hdisabled (hc ▸ hnext)) hrest
  rw [Bool.not_eq_true] at hdisabled
  obtain ⟨handler, outcome, v, -, hplan, hexchanges, houtcome, hcomplete⟩ :=
    exists_plan_of_run_render hvalid hb hdisabled hpiece
  have hexchange : ∀ e ∈ (handler r.site b.face).exchanges r.style.indent (r.services r.render b) s,
      e.before.Later (r.Asked s₀) r.style.indent e.after := fun e he =>
    later_exchange hbelow hreaches hdisabled (hexchanges ▸ he) (Plan.run_answer_of_mem_exchanges he)
  refine (Plan.related_of_exchanges Run.Later.refl (fun _ _ _ => Run.Later.trans) hexchange
    hplan).1.trans ?_
  have hcode : outcome.HasCode → v.Later (r.Asked s₀) r.style.indent u := by
    intro hhas
    obtain ⟨comments, next, rest, hnext, hrest, -⟩ := exists_of_run_complete hhas hcomplete
    exact later_next hbelow hnext
      (fun c hc => .followed hreaches hdisabled houtcome hhas (hc ▸ hnext)) hrest
  cases outcome with
  | value code grade => exact hcode trivial
  | statement code => exact hcode trivial
  | nothing =>
      obtain ⟨-, rfl⟩ := EStateM.Result.ok.inj hcomplete
      exact .refl _
  | other kindName => cases hcomplete

/-- What changes while a block is rendered is asked for: by induction from the blocks that are
entered to those that enter them. -/
lemma Reaches.later_asked (h : r.Reaches s₀ b s) (hpiece : (r.render b).run s = .ok piece u) :
    s.Later (r.Asked s₀) r.style.indent u := by
  have hmem := (h.finishes hvalid hr hdialect hrun).1
  exact Workspace.fuel_induction (P := fun _ b => r.Accounts s₀ b) hvalid
    (fun _ _ => accounts_step hvalid hr hdialect hrun) hmem (Nat.le_refl r.workspace.size) s piece u
    h hpiece

/-- **Everything that changes in a run is asked for** by a block that is rendered. -/
theorem later_asked : s₀.Later (r.Asked s₀) r.style.indent t := by
  have htops : ∀ after before texts s more u, r.workspace.topBlocks = before ++ after →
      (before.mapM fun b => do return topText (← r.render b)).run s₀ = .ok texts s →
      (after.mapM fun b => do return topText (← r.render b)).run s = .ok more u →
      s.Later (r.Asked s₀) r.style.indent u := by
    intro after
    induction after with
    | nil =>
        intro before texts s more u _ _ hmore
        obtain ⟨-, rfl⟩ := EStateM.Result.ok.inj hmore
        exact .refl _
    | cons b after ih =>
        intro before texts s more u htop hbefore hmore
        rw [List.mapM_cons] at hmore
        obtain ⟨text, v, htext, hlater⟩ := Running.exists_of_run_bind hmore
        obtain ⟨others, v', hothers, hlast⟩ := Running.exists_of_run_bind hlater
        obtain ⟨-, rfl⟩ := EStateM.Result.ok.inj hlast
        obtain ⟨piece, v'', hpiece, hline⟩ := Running.exists_of_run_bind htext
        obtain ⟨-, rfl⟩ := EStateM.Result.ok.inj hline
        have hreaches : r.Reaches s₀ b s := .top htop hbefore
        refine (hreaches.later_asked hvalid hr hdialect hrun hpiece).trans ?_
        refine ih (before ++ [b]) (texts ++ [text]) _ _ _ (by rw [htop, List.append_cons]) ?_ hothers
        rw [List.mapM_append, Running.run_bind_of_ok hbefore, List.mapM_cons, bind_assoc,
          Running.run_bind_of_ok htext]
        rfl
  obtain ⟨texts, u, hall, hbody⟩ := Running.exists_of_run_bind hrun
  obtain ⟨-, rfl⟩ := EStateM.Result.ok.inj hbody
  exact htops _ [] [] s₀ texts _ rfl rfl hall

omit hvalid hrun in
/-- What is asked for is what a standard handler may ask for. -/
lemma Asked.allowed (hvalid : r.workspace.validate = .ok ()) (hrun : r.renderTops.run s₀ = .ok body t)
    (h : r.Asked s₀ q) (hown : q.IsOwn) : q.Allowed r.workspace.written := by
  obtain ⟨b, s, hreaches, henabled, e, he, rfl⟩ := h
  obtain ⟨handler, outcome, v, hcarries⟩ := hreaches.carries hvalid hr hdialect hrun henabled
  exact hcarries.allowed hr hdialect he hown

end Calls

end Blockscribe.Renderer
