/-
Blocks that differ in their comments are rendered to the same code.

* `Piece.Same`: pieces of code that differ in the remarks in front of them. What is plugged into a
  value socket has none.
* `Renderer.RendersValue`: a block that is rendered to an expression in some state of a run.
* `Renderer.Silent`: two renderers of blocks that have the same place, whose comments are remarks.
* `Silent.refines_render`: related blocks are rendered to the same code.
* `Generator.generate_of_silent`: so workspaces that differ in comments only give programs with the
  same code.
-/
import Blockscribe.Proofs.Handler.Alike
import Blockscribe.Proofs.Program.Tidy
import Blockscribe.Proofs.Render.Mirror
import Blockscribe.Proofs.Render.Remarks
import Blockscribe.Proofs.Settings.Style
import Blockscribe.Proofs.Workspace.Silent

namespace Blockscribe

open Relation (TransGen)

/-! ### Pieces -/

namespace Piece

/-- Pieces of code that are the same but for remarks. An expression may have remarks in front of it,
unless it is plugged into a value socket. -/
inductive Same (inline : Bool) : Piece → Piece → Prop
  | value {comments comments' code : String} {grade : Grade} : code ≠ "" → Remark comments →
      Remark comments' → (inline = true → comments = "" ∧ comments' = "") →
      Same inline (.value (comments ++ code) grade) (.value (comments' ++ code) grade)
  | statement {code code' : String} : SameCode code code' →
      Same inline (.statement code) (.statement code')

variable {inline : Bool} {p p' : Piece}

lemma same_nothing : Same inline (.statement "") (.statement "") := .statement (.refl .nil)

lemma Same.weaken (h : Same inline p p') : Same false p p' := by
  cases h with
  | value hne hremark hremark' _ => exact .value hne hremark hremark' nofun
  | statement hcode => exact .statement hcode

/-- In a value socket the pieces make the same operand. -/
lemma Same.asOperand (h : Same true p p') {type name default operand : String} {required : Grade}
    (hok : p.asOperand type name required default = .ok operand) :
    p'.asOperand type name required default = .ok operand := by
  cases h with
  | value _ _ _ hinline =>
      obtain ⟨rfl, rfl⟩ := hinline rfl
      exact hok
  | statement hcode =>
      rw [Piece.asOperand] at hok ⊢
      simp only [hcode.empty] at hok
      exact hok

/-- In a statement socket the pieces make bodies with the same code. -/
lemma Same.asBody (h : Same inline p p') {type type' name indent body : String}
    (hindent : Text.allBlank indent.toList = true)
    (hok : p.asBody type name indent = .ok body) :
    ∃ body', p'.asBody type' name indent = .ok body' ∧ SameCode body body' := by
  cases h with
  | value => exact nomatch hok
  | @statement code code' hcode =>
      obtain rfl := Except.ok.inj hok
      refine ⟨_, rfl, ?_⟩
      by_cases hempty : code = ""
      · rw [if_pos hempty, if_pos (hcode.empty.mp hempty)]
        exact .refl .nil
      · rw [if_neg hempty, if_neg fun he => hempty (hcode.empty.mpr he)]
        exact hcode.leadLines hempty hindent

/-- The statements that follow have the same code. -/
lemma Same.asRest (h : Same inline p p') {type type' rest : String} (hok : p.asRest type = .ok rest) :
    ∃ rest', p'.asRest type' = .ok rest' ∧ SameCode rest rest' := by
  cases h with
  | value => exact nomatch hok
  | statement hcode =>
      obtain rfl := Except.ok.inj hok
      exact ⟨_, rfl, hcode⟩

/-- What the pieces contribute at the top level has the same code. -/
lemma Same.topText (h : Same inline p p') :
    SameCode (Renderer.topText p) (Renderer.topText p') := by
  cases h with
  | @value comments comments' code grade hne hremark hremark' _ =>
      have hline := SameCode.remark_append hremark hremark' (.refl (ended_break code))
        (break_ne_empty code)
      rw [Renderer.topText, Renderer.topText, if_neg (append_ne_empty_right hne),
        if_neg (append_ne_empty_right hne), Renderer.nakedLine, Renderer.nakedLine,
        String.append_assoc, String.append_assoc]
      exact hline
  | statement hcode => exact hcode

end Piece

namespace Renderer

/-- A block that is rendered to an expression, in some state of a run. -/
def RendersValue (r : Renderer) (b : Block) : Prop :=
  ∃ s t code grade, s.NamesFrom r.style.dialect.reserved ∧
    (r.render b).run s = .ok (.value code grade) t

/-- Two renderers whose blocks mirror each other, where comments are remarks, and handlers keep the
code of statements. No block that is rendered to an expression is followed by another. -/
structure Silent (r r' : Renderer) (M : Block → Block → Prop) : Prop where
  mirrors : r.Mirrors r' M
  remarks {b b' : Block} : M b b' →
    Fault.Gives (fun c => Remark c ∧ (r.workspace.isInline b.id = true → c = "")) (r.commentsFor b)
  remarks' {b b' : Block} : M b b' →
    Fault.Gives (fun c => Remark c ∧ (r.workspace.isInline b.id = true → c = ""))
      (r'.commentsFor b')
  alike {b b' : Block} {handler : Handler} : M b b' → r.handlers.resolve b.type = .ok handler →
    Plan.Alike SameCode (fun _ _ => True) Outcome.Same (handler r.site b.face)
      (handler r.site b.face)
  indent : Text.allBlank r.style.indent.toList = true
  last {b b' : Block} : M b b' → b.next ≠ none → ¬ (r.RendersValue b ∧ r'.RendersValue b')

namespace Silent

variable {r r' : Renderer} {M : Block → Block → Prop} {b b' : Block}

/-! ### Services -/

section Services

variable (hbelow : ∀ c c', M c c' → TransGen r.workspace.Refers b.id c.id →
  Running.Refines r.style.dialect.reserved (Piece.Same (r.workspace.isInline c.id)) (r.render c)
    (r'.render c'))

include hbelow

/-- Remarks are put in front, and statements with the same code follow. -/
lemma refines_surround (h : r.Silent r' M) (hb : M b b') (code code' : String) :
    Running.Refines r.style.dialect.reserved
      (fun full full' => ∃ comments comments' rest rest',
        full = comments ++ code ++ rest ∧ full' = comments' ++ code' ++ rest' ∧
        Remark comments ∧ Remark comments' ∧
        (r.workspace.isInline b.id = true → comments = "" ∧ comments' = "") ∧
        SameCode rest rest' ∧ (b.next = none → rest = "" ∧ rest' = ""))
      (r.surround r.render b code) (r'.surround r'.render b' code') := by
  obtain ⟨comments, hcomments, hremark, hinline⟩ := h.remarks hb
  obtain ⟨comments', hcomments', hremark', hinline'⟩ := h.remarks' hb
  refine (h.mirrors.refines_surround hbelow Piece.same_nothing (fun _ _ _ => Piece.Same.weaken) hb
    (fun _ _ hpiece _ _ _ hok => hpiece.asRest hok) (fun _ _ => ⟨comments', hcomments'⟩) code
    code').mono ?_
  rintro full full' ⟨c, c', rest, rest', rfl, rfl, hc, hc', hrest, hnone⟩
  obtain rfl := Except.ok.inj (hcomments.symm.trans hc)
  obtain rfl := Except.ok.inj (hcomments'.symm.trans hc')
  exact ⟨comments, comments', rest, rest', rfl, rfl, hremark, hremark',
    fun hi => ⟨hinline hi, hinline' hi⟩, hrest, hnone⟩

/-- What the handler makes of a block is the same, or statements with the same code. -/
lemma refines_outcome (h : r.Silent r' M) (hb : M b b') :
    Running.Refines r.style.dialect.reserved Outcome.Same (r.outcome b) (r'.outcome b') := by
  have hoperand : ∀ (c : Block) (p p' : Piece), r.workspace.isInline c.id = true →
      Piece.Same (r.workspace.isInline c.id) p p' →
      ∀ type name required default operand, p.asOperand type name required default = .ok operand →
        p'.asOperand type name required default = .ok operand := by
    intro c p p' hinline hpiece type name required default operand hok
    rw [hinline] at hpiece
    exact hpiece.asOperand hok
  refine h.mirrors.refines_outcome hb fun handler hresolve => ?_
  refine (h.alike hb hresolve).refines (h.mirrors.refines_expression hbelow hb hoperand) ?_ ?_
  · exact h.mirrors.refines_statements hbelow Piece.same_nothing (fun _ _ _ => Piece.Same.weaken) hb
      fun _ _ hpiece _ _ _ _ hok => hpiece.asBody h.indent hok
  · exact fun code => (refines_surround hbelow h hb code code).mono fun _ _ _ => trivial

/-- A block is rendered to the same code, unless it is rendered to an expression and followed by
another block. -/
lemma refines_step (h : r.Silent r' M) (hb : M b b') :
    Running.Refines r.style.dialect.reserved
      (fun p p' => Piece.Same (r.workspace.isInline b.id) p p' ∨
        (b.next ≠ none ∧ ∃ code grade code' grade',
          p = .value code grade ∧ p' = .value code' grade'))
      (r.render b) (r'.render b') := by
  have hsurround := refines_surround hbelow h hb
  refine h.mirrors.refines_step hbelow Piece.same_nothing (fun _ _ _ => Piece.Same.weaken) hb ?_
    (refines_outcome hbelow h hb) ?_
  · intro p p' hpiece hlast
    cases hpiece with
    | value =>
        have hnext : b.next ≠ none := by
          intro hnext
          cases (hlast hnext).1
        exact Or.inr ⟨hnext, _, _, _, _, rfl, rfl⟩
    | statement hcode => exact Or.inl (.statement hcode)
  · intro outcome outcome' hsame
    cases hsame with
    | nothing => exact Running.refines_pure (Or.inl Piece.same_nothing)
    | @value code grade hne =>
        refine (hsurround code code).bind fun full full' hfull => Running.refines_pure ?_
        obtain ⟨comments, comments', rest, rest', rfl, rfl, hremark, hremark', hinline, -, hnone⟩ :=
          hfull
        by_cases hnext : b.next = none
        · obtain ⟨rfl, rfl⟩ := hnone hnext
          rw [String.append_empty, String.append_empty]
          exact Or.inl (.value hne hremark hremark' hinline)
        · exact Or.inr ⟨hnext, _, _, _, _, rfl, rfl⟩
    | @statement code code' hne hcode =>
        refine (hsurround code code').bind fun full full' hfull => Running.refines_pure ?_
        obtain ⟨comments, comments', rest, rest', rfl, rfl, hremark, hremark', -, hrest, -⟩ :=
          hfull
        exact Or.inl (.statement ((SameCode.remark_append hremark hremark' hcode hne).append hrest))

end Services

/-- **Comments make no difference to the code of a block.** Blocks that have the same place in two
workspaces, whose comments are remarks, are rendered to the same code. -/
lemma refines_render (h : r.Silent r' M) : ∀ b b', M b b' →
    Running.Refines r.style.dialect.reserved (Piece.Same (r.workspace.isInline b.id)) (r.render b)
      (r'.render b') := by
  have hall : ∀ b ∈ r.workspace.blocks, ∀ b', M b b' →
      Running.Refines r.style.dialect.reserved (Piece.Same (r.workspace.isInline b.id)) (r.render b)
        (r'.render b') := by
    refine Workspace.induction_below h.mirrors.formed h.mirrors.valid fun b hmem ih b' hb => ?_
    have hstep := refines_step (fun c c' hM hlower =>
      ih c (h.mirrors.blocks.mem hM).1 hlower c' hM) h hb
    intro s s' hs hmatches p t hrun
    obtain ⟨p', t', hrun', hpiece, ht, hmatches'⟩ := hstep s s' hs hmatches p t hrun
    refine ⟨p', t', hrun', ?_, ht, hmatches'⟩
    rcases hpiece with hsame | ⟨hnext, code, grade, code', grade', rfl, rfl⟩
    · exact hsame
    · -- an expression would be followed by another block
      have hs' : s'.NamesFrom r'.style.dialect.reserved := by
        obtain ⟨requests, hnames⟩ := hs
        exact ⟨requests, by rw [hmatches.names, hnames, h.mirrors.style]⟩
      exact absurd ⟨⟨s, t, code, grade, hs, hrun⟩, ⟨s', t', code', grade', hs', hrun'⟩⟩
        (h.last hb hnext)
  exact fun b b' hb => hall b (h.mirrors.blocks.mem hb).1 b' hb

end Silent

/-! ### Workspaces that differ in comments only -/

section Twins

open Workspace (Twins)

variable {w v : Workspace} {style : Style}

/-- The comments in front of a block that defines no procedure are remarks. -/
lemma gives_remarks (hstyle : style.Writable) (hw : w.WellFormed) (hvalid : w.validate = .ok ())
    (htexts : ∀ b ∈ w.blocks, b.comment.IsRemark) {b : Block} (hb : b ∈ w.blocks)
    (hprocedure : b.type ∉ Handler.Procedures.definers) :
    Fault.Gives (fun c => Remark c ∧ (w.isInline b.id = true → c = ""))
      ((standard w style).commentsFor b) := by
  have hhandlers : (standard w style).handlers.isProcedure b.type = false :=
    Handler.isProcedure_standard hprocedure
  rw [commentsFor, hhandlers]
  exact Workspace.gives_remarks hw hvalid htexts hb hstyle.width
    (Dialect.framed_of_mem_all hstyle.dialect).lineComment

/-- In accepted workspaces without definitions of procedures, whose comments are texts, blocks that
differ in their comments are rendered to the same code. -/
lemma silent_twins (hstyle : style.Writable) (hw : w.WellFormed) (hvalid : w.validate = .ok ())
    (hv : v.WellFormed) (hvalid' : v.validate = .ok ()) (hsilent : w.silent = v.silent)
    (htexts : ∀ b ∈ w.blocks, b.comment.IsRemark) (htexts' : ∀ b ∈ v.blocks, b.comment.IsRemark)
    (hprocedures : ∀ b ∈ w.blocks, b.type ∉ Handler.Procedures.definers)
    (hlast : ∀ b b', w.Twins v b b' → b.next ≠ none →
      ¬ ((standard w style).RendersValue b ∧ (standard v style).RendersValue b')) :
    (standard w style).Silent (standard v style) (w.Twins v) where
  mirrors := ⟨rfl, rfl, Workspace.declared_eq_of_silent hsilent, hw, hv, hvalid, hvalid',
    Workspace.mirrors_twins hsilent⟩
  remarks hb := gives_remarks hstyle hw hvalid htexts hb.1 (hprocedures _ hb.1)
  remarks' {b b'} hb := by
    have hmirrors := Workspace.mirrors_twins hsilent
    have hprocedure : b'.type ∉ Handler.Procedures.definers :=
      hmirrors.type hb ▸ hprocedures b hb.1
    have hremarks := gives_remarks hstyle hv hvalid' htexts' hb.2.1 hprocedure
    rw [hmirrors.inline hb] at hremarks
    exact hremarks
  alike hb hresolve := Handler.alike_of_resolve hresolve (hprocedures _ hb.1) _ _
  indent := hstyle.indent
  last := fun hb hnext => hlast _ _ hb hnext

end Twins

end Renderer

namespace Generator

variable {g : Generator} {w v : Workspace}

/-- The programs of renderers that give the same code have the same code. -/
lemma exists_generate_of_silent {M : Block → Block → Prop}
    (h : (g.renderer w).Silent (g.renderer v) M) (hframed : g.style.dialect.Framed)
    (hlined : Workspace.Lined M (fun _ => False) w.topBlocks v.topBlocks) :
    ∀ text, (g.generate w).1 = .ok text → ∃ text', (g.generate v).1 = .ok text' ∧
      Text.codeLines text.toList = Text.codeLines text'.toList := by
  have hrender : ∀ b b', M b b' → Running.Refines g.style.dialect.reserved
      (fun p p' => (Renderer.topText p = "" ↔ Renderer.topText p' = "") ∧
        SameCode (Renderer.topText p) (Renderer.topText p'))
      ((g.renderer w).render b) ((g.renderer v).render b') := by
    intro b b' hb
    refine (h.refines_render b b' hb).mono fun p p' hpiece => ?_
    exact ⟨hpiece.topText.empty, hpiece.topText⟩
  have hprogram : Running.Refines g.style.dialect.reserved
      (fun text text' => Text.codeLines text.toList = Text.codeLines text'.toList)
      (g.program w) (g.program v) := by
    refine (Renderer.refines_renderTops hrender (fun _ hidle => hidle.elim) hlined).bind ?_
    rintro body body' ⟨ts, ts', hsame, -, rfl, rfl⟩
    have hbody := SameCode.intercalate hsame
    have hdeclared : v.declared = w.declared := h.mirrors.declared
    rw [hdeclared]
    exact refines_finish hbody.empty.symm fun definitions identifiers =>
      Program.codeLines_tidy_eq hframed h.indent hbody definitions identifiers
  exact fun text => generate_of_refines h.mirrors.valid' h.mirrors.declared hprogram

/-- A generator with the standard handlers. -/
def standard (style : Style) : Generator := ⟨style, Handler.standard⟩

/-- The code of the program that is generated, if there is one: its lines that are neither blank nor
comments. -/
def code (g : Generator) (w : Workspace) : Option (List (List Char)) :=
  (g.generate w).1.toOption.map fun text => Text.codeLines text.toList

/-- Two messages, the second of them put together. The comments are given. -/
def remarkedSample (outer inner : Value) : Workspace :=
  Workspace.edited []
    [.add ⟨"text", [("TEXT", .text "b")], [], none, inner, false, []⟩,
      .add ⟨"text_print", [], [⟨"TEXT", .value, some 1⟩], none, outer, false, []⟩,
      .add ⟨"text", [("TEXT", .text "a")], [], none, inner, false, []⟩,
      .add ⟨"text_print", [], [⟨"TEXT", .value, some 3⟩], some 2, outer, false, []⟩]

end Generator

end Blockscribe
