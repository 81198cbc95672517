/-
Expressions and statements.

* `Renderer.Mixes`: the reports about an expression where statements belong, and about statements
  where an expression belongs.
* `Mixes.exists_run`: wherever a run comes to such a place it ends with the report.
* `Generator.kinds_apart`: so in a program no expression stands where statements belong, and no
  statements are plugged into a value socket. What follows a block is put behind its code in any
  case, also if that is an expression.
-/
import Blockscribe.Proofs.Program.Course
import Blockscribe.Proofs.Render.Calls

namespace Blockscribe

namespace Renderer

/-- The reports about code of one kind where code of the other belongs: an expression follows a block
that gives code, or one whose code is put in a definition; statements are plugged into a value
socket; an expression is plugged into a statement socket. -/
inductive Mixes (r : Renderer) (s₀ : Run) : Fault → Prop
  | follows {b c : Block} {s u v : Run} {outcome : Outcome} {comments code : String}
      {grade : Grade} : r.Calls s₀ b s → b.disabled = false →
      (r.outcome b).run s = .ok outcome u → outcome.HasCode →
      r.workspace.nextOf b = .ok (some c) → r.commentsFor b = .ok comments →
      (r.render c).run u = .ok (.value code grade) v →
      Mixes r s₀ (.block b.type "render next statement" "following block produces a value")
  | surrounded {b c : Block} {s u v : Run} {handler : Handler} {comments own code : String}
      {grade : Grade} : r.Calls s₀ b s → b.disabled = false →
      r.handlers.resolve b.type = .ok handler →
      (handler r.site b.face).Puts r.style.indent (r.services r.render b) s (.surround own) u →
      r.workspace.nextOf b = .ok (some c) → r.commentsFor b = .ok comments →
      (r.render c).run u = .ok (.value code grade) v →
      Mixes r s₀ (.block b.type "render next statement" "following block produces a value")
  | operand {b c : Block} {s u v : Run} {handler : Handler} {name default code : String}
      {required : Grade} : r.Calls s₀ b s → b.disabled = false →
      r.handlers.resolve b.type = .ok handler →
      (handler r.site b.face).Puts r.style.indent (r.services r.render b) s
        (.expression name required default) u →
      r.target? b name .value = .ok (some c) → (r.render c).run u = .ok (.statement code) v →
      code ≠ "" →
      Mixes r s₀ (.block c.type ("render value input '" ++ name ++ "'")
        "block does not produce a value")
  | body {b c : Block} {s u v : Run} {handler : Handler} {name code : String} {grade : Grade} :
      r.Calls s₀ b s → b.disabled = false → r.handlers.resolve b.type = .ok handler →
      (handler r.site b.face).Puts r.style.indent (r.services r.render b) s (.statements name) u →
      r.target? b name .statement = .ok (some c) →
      (r.render c).run u = .ok (.value code grade) v →
      Mixes r s₀ (.block c.type ("render statement input '" ++ name ++ "'")
        "block produces a value")

variable {r : Renderer} {b c : Block} {s s₀ t u v : Run} {q : Question} {fault : Fault}
  {comments : String} {piece : Piece}

/-- A piece that cannot be taken makes the question fail. -/
lemma run_answer_of_taken_error (hfetches : r.Fetches b q c) (hremarks : r.Remarks b q comments)
    (hpiece : (r.render c).run u = .ok piece v) (htaken : r.taken b c comments q piece = .error fault) :
    (q.answer r.style.indent (r.services r.render b)).run u = .error fault v := by
  rw [answer_eq hfetches hremarks, Running.run_bind_of_ok hpiece, htaken]
  rfl

/-- Wherever a run comes to such a place it ends with the report. -/
lemma Mixes.exists_run (h : r.Mixes s₀ fault) (hvalid : r.workspace.validate = .ok ()) :
    ∃ t, r.renderTops.run s₀ = .error fault t := by
  cases h with
  | @follows b c s u v outcome comments code grade hcalls henabled houtcome hcode hnext hcomments
      hpiece =>
      refine ⟨v, hcalls.run_of_error hvalid
        (run_render_of_complete_error hvalid hcalls.mem henabled houtcome ?_)⟩
      rw [complete_eq hcode]
      exact Running.run_bind_of_error
        (run_answer_of_taken_error (q := .surround _) hnext (fun _ _ => hcomments) hpiece rfl)
  | @surrounded b c s u v handler comments own code grade hcalls henabled hresolve hputs hnext
      hcomments hpiece =>
      refine ⟨v, hcalls.run_of_error hvalid
        (run_render_of_puts hvalid hcalls.mem henabled hresolve hputs ?_)⟩
      exact run_answer_of_taken_error (q := .surround _) hnext (fun _ _ => hcomments) hpiece rfl
  | @operand b c s u v handler name default code required hcalls henabled hresolve hputs htarget
      hpiece hne =>
      refine ⟨v, hcalls.run_of_error hvalid
        (run_render_of_puts hvalid hcalls.mem henabled hresolve hputs ?_)⟩
      have hremarks : r.Remarks b (.expression name required default) "" := nofun
      exact run_answer_of_taken_error htarget hremarks hpiece (if_neg hne)
  | @body b c s u v handler name code grade hcalls henabled hresolve hputs htarget hpiece =>
      refine ⟨v, hcalls.run_of_error hvalid
        (run_render_of_puts hvalid hcalls.mem henabled hresolve hputs ?_)⟩
      have hremarks : r.Remarks b (.statements name) "" := nofun
      exact run_answer_of_taken_error htarget hremarks hpiece rfl

/-- What follows a block that gives code is put behind it. -/
lemma exists_rest_of_run_render (hvalid : r.workspace.validate = .ok ())
    (hb : b ∈ r.workspace.blocks) (henabled : b.disabled = false) {outcome : Outcome}
    (houtcome : (r.outcome b).run s = .ok outcome u) (hcode : outcome.HasCode)
    (h : (r.render b).run s = .ok piece v) :
    ∃ comments next rest, r.commentsFor b = .ok comments ∧ r.workspace.nextOf b = .ok next ∧
      (optional r.render next).run u = .ok (.statement rest) v ∧
      piece = outcome.piece (comments ++ outcome.code ++ rest) := by
  rw [render_eq_outcome hvalid hb henabled, Running.run_bind_of_ok houtcome, complete_eq hcode] at h
  obtain ⟨full, u', hfull, hlast⟩ := Running.exists_of_run_bind h
  obtain ⟨rfl, rfl⟩ := EStateM.Result.ok.inj hlast
  obtain ⟨comments, next, rest, hcomments, hnext, hrest, rfl⟩ := exists_of_run_surround hfull
  exact ⟨comments, next, rest, hcomments, hnext, hrest, rfl⟩

end Renderer

/-- The pieces that a question takes, with the answers that are made of them: an expression or
nothing in a value socket, statements in a statement socket, and statements that follow. -/
def Question.Takes (indent : String) : Question → Piece → String → Prop
  | expression _ _ default, piece, answer => (piece.code = "" ∧ answer = default) ∨
      ∃ code grade, piece = .value code grade ∧ (answer = code ∨ answer = "(" ++ code ++ ")")
  | statements _, piece, answer => ∃ code, piece = .statement code ∧
      answer = if code = "" then "" else leadLines indent code
  | surround code, piece, answer => ∃ comments rest, piece = .statement rest ∧
      answer = comments ++ code ++ rest
  | _, _, _ => False

namespace Renderer

/-- Where a question is answered by a block, the block is of the kind that it takes. -/
lemma takes_of_taken {r : Renderer} {b c : Block} {q : Question} {comments answer : String}
    {piece : Piece} (hfetches : r.Fetches b q c) (h : r.taken b c comments q piece = .ok answer) :
    q.Takes r.style.indent piece answer := by
  cases q with
  | expression name required default =>
      have hoperand : piece.asOperand c.type name required default = .ok answer := h
      cases piece with
      | statement code =>
          rw [Piece.asOperand] at hoperand
          split at hoperand
          · rename_i hempty
            exact .inl ⟨hempty, (Except.ok.inj hoperand).symm⟩
          · cases hoperand
      | value code grade =>
          rw [Piece.asOperand] at hoperand
          split at hoperand
          · rename_i hempty
            exact .inl ⟨hempty, (Except.ok.inj hoperand).symm⟩
          · split at hoperand
            · rename_i wrapped hresolve
              obtain rfl := Except.ok.inj hoperand
              exact .inr ⟨code, grade, rfl, eq_or_parenthesized hresolve⟩
            · cases hoperand
  | statements name =>
      cases piece with
      | value => cases h
      | statement code => exact ⟨code, rfl, (Except.ok.inj h).symm⟩
  | surround code =>
      cases piece with
      | value => cases h
      | statement rest => exact ⟨comments, rest, rfl, (Except.ok.inj h).symm⟩
  | identifier | fresh | helper | define => exact hfetches.elim

/-- A question that is answered by a block takes what the block is rendered to. -/
lemma exists_of_run_answer {r : Renderer} {b c : Block} {q : Question} {answer : String} {u v : Run}
    (hfetches : r.Fetches b q c)
    (h : (q.answer r.style.indent (r.services r.render b)).run u = .ok answer v) :
    ∃ piece, (r.render c).run u = .ok piece v ∧ q.Takes r.style.indent piece answer := by
  obtain ⟨comments, hremarks⟩ : ∃ comments, r.Remarks b q comments := by
    by_cases hsurround : ∃ code, q = .surround code
    · obtain ⟨code, rfl⟩ := hsurround
      obtain ⟨comments, -, -, hcomments, -⟩ := exists_of_run_surround h
      exact ⟨comments, fun _ _ => hcomments⟩
    · exact ⟨"", fun code hcode => absurd ⟨code, hcode⟩ hsurround⟩
  rw [answer_eq hfetches hremarks] at h
  obtain ⟨piece, u', hpiece, hlast⟩ := Running.exists_of_run_bind h
  obtain ⟨htaken, rfl⟩ := Running.eq_ok_of_run_ofExcept hlast
  exact ⟨piece, hpiece, takes_of_taken hfetches htaken⟩

end Renderer

namespace Generator

variable {style : Style} {w : Workspace}

/-- **Where expressions and statements stand.** Let a workspace be accepted, with the standard
handlers, in every style. Wherever a run comes to an expression that follows a block or is plugged
into a statement socket, or to statements that are plugged into a value socket, no program is
generated, and the report says which block is of the wrong kind. So in a run that makes a program
each block that gives code is followed by statements or nothing, and these are put behind its code,
be that an expression or statements; what is plugged into a value socket is an expression or
nothing, and in a statement socket there are statements. -/
theorem kinds_apart (hvalid : w.validate = .ok ()) :
    (∀ fault, (Renderer.standard w style).Mixes ((standard style).start w) fault →
      ((standard style).generate w).1 = .error fault) ∧
    ∀ text, ((standard style).generate w).1 = .ok text →
      ∀ b s, (Renderer.standard w style).Calls ((standard style).start w) b s →
        b.disabled = false →
        (∃ outcome u, ((Renderer.standard w style).outcome b).run s = .ok outcome u ∧
          (outcome.HasCode → ∃ comments next rest v,
            (Renderer.standard w style).commentsFor b = .ok comments ∧ w.nextOf b = .ok next ∧
            (Renderer.optional (Renderer.standard w style).render next).run u =
              .ok (.statement rest) v ∧
            ((Renderer.standard w style).render b).run s =
              .ok (outcome.piece (comments ++ outcome.code ++ rest)) v)) ∧
        ∀ handler q u c, Handler.standard.resolve b.type = .ok handler →
          (handler (Renderer.standard w style).site b.face).Puts style.indent
            ((Renderer.standard w style).services (Renderer.standard w style).render b) s q u →
          (Renderer.standard w style).Fetches b q c →
          ∃ piece v answer, ((Renderer.standard w style).render c).run u = .ok piece v ∧
            (q.answer style.indent ((Renderer.standard w style).services
              (Renderer.standard w style).render b)).run u = .ok answer v ∧
            q.Takes style.indent piece answer := by
  refine ⟨fun fault hmixes => ?_, fun text hgenerate b s hcalls henabled => ?_⟩
  · obtain ⟨t, hrun⟩ := hmixes.exists_run hvalid
    have hprogram : ((standard style).program w).run ((standard style).start w) = .error fault t :=
      Running.run_bind_of_error hrun
    simp only [generate, hvalid, hprogram]
  · obtain ⟨body, t, hmakes⟩ := exists_makes hgenerate
    obtain ⟨piece, v, hpiece⟩ := hcalls.exists_of_run hvalid hmakes.run_body
    obtain ⟨handler, outcome, u, hresolve, hplan, -, houtcome, -⟩ :=
      Renderer.exists_plan_of_run_render hvalid hcalls.mem henabled hpiece
    refine ⟨⟨outcome, u, houtcome, fun hcode => ?_⟩, fun handler' q u' c hresolve' hputs hfetches => ?_⟩
    · obtain ⟨comments, next, rest, hcomments, hnext, hrest, rfl⟩ :=
        Renderer.exists_rest_of_run_render hvalid hcalls.mem henabled houtcome hcode hpiece
      exact ⟨comments, next, rest, v, hcomments, hnext, hrest, hpiece⟩
    · obtain rfl := Except.ok.inj (hresolve.symm.trans hresolve')
      obtain ⟨answer, v', hanswer⟩ := hputs.exists_answer hplan
      obtain ⟨found, hfound, htakes⟩ :=
        Renderer.exists_of_run_answer (r := Renderer.standard w style) hfetches hanswer
      exact ⟨found, v', answer, hfound, hanswer, htakes⟩

/-- The null value, with a statement after it. -/
def kindsSample : Workspace :=
  Workspace.edited []
    [.add ⟨"logic_null", [], [], none, .null, false, []⟩,
      .add ⟨"text_print", [], [], none, .null, false, []⟩, .chain [1, 2]]

/-- A statement, with the null value after it. -/
def swappedSample : Workspace :=
  Workspace.edited []
    [.add ⟨"text_print", [], [], none, .null, false, []⟩,
      .add ⟨"logic_null", [], [], none, .null, false, []⟩, .chain [1, 2]]

/-- The statement is written behind the null value; after the statement the null value is refused. -/
theorem kinds_apart_kindsSample :
    kindsSample.validate = .ok () ∧ swappedSample.validate = .ok () ∧
      (∃ text v, ((standard .python).generate kindsSample).1 = .ok text ∧
        ((Renderer.standard kindsSample .python).render kindsSample.blocks[0]).run
          ((standard .python).start kindsSample) =
            .ok (.value ("" ++ "None" ++ "print('')\n") (.rank .atomic)) v) ∧
      ((standard .python).generate swappedSample).1 =
        .error (.block "text_print" "render next statement" "following block produces a value") := by
  have hvalid : kindsSample.validate = .ok () := rfl
  have hswapped : swappedSample.validate = .ok () := rfl
  refine ⟨hvalid, hswapped, ?_, ?_⟩
  · obtain ⟨text, hgenerate⟩ := exists_generate (g := standard .python) (w := kindsSample)
      (by decide +kernel)
    obtain ⟨⟨outcome, u, houtcome, hcode⟩, -⟩ := (kinds_apart hvalid).2 text hgenerate
      kindsSample.blocks[0] _ (.top (show _ = [] ++ _ :: _ from rfl) rfl) rfl
    obtain ⟨rfl, rfl⟩ := EStateM.Result.ok.inj houtcome
    obtain ⟨comments, next, rest, v, hcomments, hnext, hrest, hpiece⟩ := hcode trivial
    obtain rfl := Except.ok.inj hcomments
    obtain rfl := Except.ok.inj hnext
    obtain ⟨hstatement, -⟩ := EStateM.Result.ok.inj hrest
    obtain rfl := Piece.statement.inj hstatement
    exact ⟨text, v, hgenerate, hpiece⟩
  · have hcall : (Renderer.standard swappedSample .python).Calls
        ((standard .python).start swappedSample) swappedSample.blocks[0] _ :=
      .top (show _ = [] ++ _ :: _ from rfl) rfl
    refine (kinds_apart hswapped).1 _ (.follows hcall rfl rfl ?_ rfl rfl rfl)
    exact trivial

end Generator

end Blockscribe
