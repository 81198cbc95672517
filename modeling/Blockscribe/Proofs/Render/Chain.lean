/-
A chain of statements is rendered from left to right.

* `Workspace.Row`: blocks that are linked in a row, with nothing after the last of them; `Row.next`
  says that the block which follows the first one is the second one.
* `Renderer.run_head_of_codes`: if the handlers of the enabled blocks of a row, run one after the
  other, all give statements, these are what the row is rendered to, with the comments of each block
  in front of its statements.
* `run_head_of_fault`: if one of them ends with a fault instead, so does the rendering.
* `render_row`: both for the first block of a row, and that the comments are found whenever they are
  texts and the style has room for them.
-/
import Blockscribe.Proofs.Render.Mirror
import Blockscribe.Proofs.Render.Operand
import Blockscribe.Proofs.Render.Remarks
import Blockscribe.Proofs.Settings.Style

namespace Blockscribe

namespace Workspace

/-- Blocks in a row: each of them is linked to the next one, and nothing follows the last one. -/
inductive Row (w : Workspace) : List Block → Prop
  | nil : Row w []
  | cons {b : Block} {rest : List Block} : b ∈ w.blocks → b.next = rest.head?.map Block.id →
      Row w rest → Row w (b :: rest)

variable {w : Workspace} {b : Block} {row rest : List Block}

lemma Row.mem (h : w.Row row) : ∀ c ∈ row, c ∈ w.blocks := by
  induction h with
  | nil => exact nofun
  | cons hb _ _ ih => exact List.forall_mem_cons.mpr ⟨hb, ih⟩

/-- What follows the first block of a row is the second one. -/
lemma Row.led_next (hw : w.WellFormed) (h : w.Row rest) (hnext : b.next = rest.head?.map Block.id) :
    w.led b.next = rest.head? := by
  rw [hnext]
  cases h with
  | nil => rfl
  | cons hc _ _ => exact hw.find?_eq_some hc

end Workspace

open Workspace (Row)

/-- The enabled blocks of a row. -/
def enabled (row : List Block) : List Block := row.filter fun b => !b.disabled

lemma enabled_cons_of_disabled {b : Block} (h : b.disabled = true) (rest : List Block) :
    enabled (b :: rest) = enabled rest := List.filter_cons_of_neg (by simp [h])

lemma enabled_cons_of_enabled {b : Block} (h : b.disabled = false) (rest : List Block) :
    enabled (b :: rest) = b :: enabled rest := List.filter_cons_of_pos (by simp [h])

namespace Renderer

variable {r : Renderer} {b c : Block} {row rest before after : List Block} {s s' t : Run}
  {codes comments : List String} {fault : Fault}

/-! ### One block of a row -/

/-- A disabled block is rendered to what follows it. -/
lemma render_cons_of_disabled (hw : r.workspace.WellFormed) (hvalid : r.workspace.validate = .ok ())
    (hb : b ∈ r.workspace.blocks) (hnext : b.next = rest.head?.map Block.id)
    (hrest : r.workspace.Row rest) (hdisabled : b.disabled = true) :
    r.render b = optional r.render rest.head? := by
  rw [render_of_disabled hw hvalid hb hdisabled, hrest.led_next hw hnext]

/-- An enabled block of statements is rendered to its comments, its statements and what follows. -/
lemma run_render_cons (hw : r.workspace.WellFormed) (hvalid : r.workspace.validate = .ok ())
    (hb : b ∈ r.workspace.blocks) (hnext : b.next = rest.head?.map Block.id)
    (hrest : r.workspace.Row rest) (henabled : b.disabled = false) {code comment : String}
    (hcomment : r.commentsFor b = .ok comment)
    (hrun : (r.outcome b).run s = .ok (.statement code) s') :
    (r.render b).run s =
      ((do
        let piece ← optional r.render rest.head?
        let more ← Running.ofExcept (piece.asRest b.type)
        return .statement (comment ++ code ++ more)) : Running Piece).run s' := by
  rw [render_eq_outcome hvalid hb henabled, Running.run_bind_of_ok hrun, complete, surround_eq,
    hcomment, hw.nextOf_eq hb, hrest.led_next hw hnext]
  simp only [Running.ofExcept, pure_bind, bind_assoc]

/-! ### Rows -/

lemma exists_of_comments_cons (h : (b :: rest).mapM r.commentsFor = .ok comments) :
    ∃ comment more, r.commentsFor b = .ok comment ∧ rest.mapM r.commentsFor = .ok more ∧
      comments = comment :: more := by
  rw [List.mapM_cons] at h
  obtain ⟨comment, hcomment, h⟩ := bind_eq_ok h
  obtain ⟨more, hmore, h⟩ := bind_eq_ok h
  exact ⟨comment, more, hcomment, hmore, (Except.ok.inj h).symm⟩

/-- The state in which the handler of a block ends is the one in which the next one is run. -/
lemma exists_of_codes_cons
    (h : ((b :: rest).mapM r.outcome).run s = .ok (codes.map .statement) t) :
    ∃ code more s', (r.outcome b).run s = .ok (.statement code) s' ∧
      (rest.mapM r.outcome).run s' = .ok (more.map .statement) t ∧ codes = code :: more := by
  rw [List.mapM_cons] at h
  obtain ⟨outcome, s', hfirst, h⟩ := Running.exists_of_run_bind h
  obtain ⟨outcomes, s'', hothers, h⟩ := Running.exists_of_run_bind h
  obtain ⟨hcodes, rfl⟩ := EStateM.Result.ok.inj h
  obtain ⟨code, more, rfl, rfl, rfl⟩ := List.map_eq_cons_iff.mp hcodes.symm
  exact ⟨code, more, s', hfirst, hothers, rfl⟩

/-- The statements of a row: the induction is on the row, and the state in which the handler of a
block ends is the one in which the rest of the row is rendered. -/
lemma run_head_of_codes (hw : r.workspace.WellFormed) (hvalid : r.workspace.validate = .ok ())
    (hrow : r.workspace.Row row) (hcomments : (enabled row).mapM r.commentsFor = .ok comments)
    (hrun : ((enabled row).mapM r.outcome).run s = .ok (codes.map .statement) t) :
    (optional r.render row.head?).run s =
      .ok (.statement (String.join (List.zipWith (· ++ ·) comments codes))) t := by
  induction hrow generalizing s comments codes with
  | nil => 
      obtain rfl := Except.ok.inj hcomments
      obtain ⟨hnil, rfl⟩ := EStateM.Result.ok.inj hrun
      rfl
  | @cons b rest hb hnext hrest ih =>
      cases hcase : b.disabled with
      | true =>
          rw [enabled_cons_of_disabled hcase] at hcomments hrun
          rw [List.head?_cons, optional, render_cons_of_disabled hw hvalid hb hnext hrest hcase]
          exact ih hcomments hrun
      | false =>
          rw [enabled_cons_of_enabled hcase] at hcomments hrun
          obtain ⟨comment, comments, hcomment, hothers, rfl⟩ := exists_of_comments_cons hcomments
          obtain ⟨code, codes, s', hfirst, hlater, rfl⟩ := exists_of_codes_cons hrun
          rw [List.head?_cons, optional,
            run_render_cons hw hvalid hb hnext hrest hcase hcomment hfirst,
            Running.run_bind_of_ok (ih hothers hlater), List.zipWith_cons_cons, String.join_cons]
          rfl

/-- The fault of a row. -/
lemma run_head_of_fault (hw : r.workspace.WellFormed) (hvalid : r.workspace.validate = .ok ())
    (hrow : r.workspace.Row row) (hsplit : enabled row = before ++ c :: after)
    (hcomments : before.mapM r.commentsFor = .ok comments)
    (hrun : (before.mapM r.outcome).run s = .ok (codes.map .statement) s')
    (hfault : (r.outcome c).run s' = .error fault t) :
    (optional r.render row.head?).run s = .error fault t := by
  induction hrow generalizing s before comments codes with
  | nil => exact absurd hsplit.symm (List.append_ne_nil_of_right_ne_nil _ (List.cons_ne_nil _ _))
  | @cons b rest hb hnext hrest ih =>
      cases hcase : b.disabled with
      | true =>
          rw [enabled_cons_of_disabled hcase] at hsplit
          rw [List.head?_cons, optional, render_cons_of_disabled hw hvalid hb hnext hrest hcase]
          exact ih hsplit hcomments hrun
      | false =>
          rw [enabled_cons_of_enabled hcase] at hsplit
          rw [List.head?_cons, optional]
          cases before with
          | nil =>
              obtain ⟨rfl, rfl⟩ := List.cons.inj hsplit
              obtain ⟨-, rfl⟩ := EStateM.Result.ok.inj hrun
              rw [render_eq_outcome hvalid hb hcase, EStateM.run_bind, hfault]
          | cons first others =>
              obtain ⟨rfl, htail⟩ := List.cons.inj hsplit
              obtain ⟨comment, comments, hcomment, hothers, rfl⟩ :=
                exists_of_comments_cons hcomments
              obtain ⟨code, codes, s₁, hfirst, hlater, rfl⟩ := exists_of_codes_cons hrun
              rw [run_render_cons hw hvalid hb hnext hrest hcase hcomment hfirst, EStateM.run_bind,
                ih htail hothers hlater]

/-- In a style with room for comments, those of a row are found if all comments are texts. -/
lemma exists_comments_of_row (hw : r.workspace.WellFormed) (hvalid : r.workspace.validate = .ok ())
    (hrow : r.workspace.Row row) (hstyle : r.style.Writable)
    (htexts : ∀ b ∈ r.workspace.blocks, b.comment.IsRemark) :
    ∃ comments, (enabled row).mapM r.commentsFor = .ok comments := by
  have hgives : Fault.Gives (fun comments => ∀ comment ∈ comments, True)
      ((enabled row).mapM r.commentsFor) := by
    refine Fault.gives_mapM fun b hb => ?_
    obtain ⟨comment, hok, -⟩ := Workspace.gives_commentsFor hw hvalid htexts
      (hrow.mem b (List.mem_of_mem_filter hb)) hstyle.width r.style.dialect
      (r.handlers.isProcedure b.type)
    exact ⟨comment, hok, trivial⟩
  obtain ⟨comments, hok, -⟩ := hgives
  exact ⟨comments, hok⟩

/-- Two messages in a row, the first one with a comment, and a disabled one between them. -/
def rowSample : Workspace :=
  Workspace.edited []
    [.add ⟨"text", [("TEXT", .text "b")], [], none, .null, false, []⟩,
      .add ⟨"text_print", [], [⟨"TEXT", .value, some 1⟩], none, .null, false, []⟩,
      .add ⟨"text_print", [], [], some 2, .text "skipped", true, []⟩,
      .add ⟨"text", [("TEXT", .text "a")], [], none, .text "inside", false, []⟩,
      .add ⟨"text_print", [], [⟨"TEXT", .value, some 4⟩], some 3, .text "first", false, []⟩]

end Renderer

end Blockscribe
