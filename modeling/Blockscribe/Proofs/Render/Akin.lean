/-
Blocks are rendered to akin code.

* `Kin.Composed`: relations that last when blocks are put together.
* `Piece.Akin`: pieces of code of the same kind, with akin code.
* `Renderer.Apt`: what a workspace has to do with a relation: its comments can be put in front of
  code, and if statements cannot be put behind an expression, then nothing follows an expression.
* `Apt.shadows_render`, `shadows_renderTops`: then blocks are rendered to akin code, also where one
  run indents in another way.
-/
import Blockscribe.Proofs.Handler.Akin.Standard
import Blockscribe.Proofs.Render.Silent
import Blockscribe.Proofs.Run.Akin

namespace Blockscribe

open Handler (moduleLines)
open Handler.Procedures (definers)
open Running (Shadows shadows_pure shadows_throw shadows_ofExcept shadows_same)

variable {k : Kin} {reserved : List String} {indent indent' : String}

/-- Relations that last when blocks are put together: statements may stand in front of an expression,
and inside a block. -/
structure Kin.Composed (k : Kin) (indent indent' : String) : Prop extends
    k.Lawful indent indent' where
  lines_nonempty {a a' : String} : k.lines a a' → (a = "" ↔ a' = "")
  lines_expr {a a' b b' : String} : k.lines a a' → k.expr b b' → k.expr (a ++ b) (a' ++ b')
  body_lead {a a' : String} : k.lines a a' → a ≠ "" →
    k.body (leadLines indent a) (leadLines indent' a')

namespace Kin.Composed

lemma expr_empty (hk : k.Composed indent indent') {a a' : String} (h : k.expr a a') :
    a = "" ↔ a' = "" := by
  rcases hk.eq_or_compound (hk.part_of_expr h) with rfl | ⟨⟨hne, -⟩, hne', -⟩
  · exact Iff.rfl
  · exact iff_of_false hne hne'

end Kin.Composed

/-! ### Pieces -/

namespace Piece

/-- Pieces of code of the same kind, with akin code. -/
inductive Akin (k : Kin) : Piece → Piece → Prop
  | value {code code' : String} {grade : Grade} : k.expr code code' →
      Akin k (.value code grade) (.value code' grade)
  | statement {code code' : String} : k.lines code code' →
      Akin k (.statement code) (.statement code')

variable {p p' : Piece} {type type' name default text : String} {required : Grade}

/-- Akin pieces make akin operands. -/
lemma Akin.asOperand (h : p.Akin k p') (hk : k.Composed indent indent')
    (hdefault : k.part default default)
    (hok : p.asOperand type name required default = .ok text) :
    ∃ text', p'.asOperand type' name required default = .ok text' ∧ k.part text text' := by
  cases h with
  | @statement code code' hcode =>
      rw [Piece.asOperand] at hok ⊢
      split at hok
      · rename_i hempty
        obtain rfl := Except.ok.inj hok
        exact ⟨default, if_pos ((hk.lines_nonempty hcode).mp hempty), hdefault⟩
      · cases hok
  | @value code code' grade hcode =>
      rw [Piece.asOperand] at hok ⊢
      split at hok
      · rename_i hempty
        obtain rfl := Except.ok.inj hok
        exact ⟨default, if_pos ((hk.expr_empty hcode).mp hempty), hdefault⟩
      · rename_i hne
        rw [if_neg fun he => hne ((hk.expr_empty hcode).mpr he)]
        have hpart := hk.part_of_expr hcode
        have hwrapped := hk.part_append (hk.part_append (hk.part_const (c := "(") (by decide)) hpart)
          (hk.part_const (c := ")") (by decide))
        cases grade with
        | unknown v => cases hok
        | rank given =>
            cases required with
            | unknown v => cases hok
            | rank r =>
                obtain rfl := Except.ok.inj hok
                refine ⟨wrap code' given r, rfl, ?_⟩
                rw [wrap, wrap, wrapAt, wrapAt]
                split
                · exact hwrapped
                · exact hpart

/-- Akin pieces make akin bodies. -/
lemma Akin.asBody (h : p.Akin k p') (hk : k.Composed indent indent')
    (hok : p.asBody type name indent = .ok text) :
    ∃ text', p'.asBody type' name indent' = .ok text' ∧ k.body text text' := by
  cases h with
  | value => exact nomatch hok
  | @statement code code' hcode =>
      obtain rfl := Except.ok.inj hok
      refine ⟨_, rfl, ?_⟩
      by_cases hempty : code = ""
      · rw [if_pos hempty, if_pos ((hk.lines_nonempty hcode).mp hempty)]
        exact hk.body_none
      · rw [if_neg hempty, if_neg fun he => hempty ((hk.lines_nonempty hcode).mpr he)]
        exact hk.body_lead hcode hempty

/-- Akin pieces are akin statements behind a block. -/
lemma Akin.asRest (h : p.Akin k p') (hok : p.asRest type = .ok text) :
    ∃ text', p'.asRest type' = .ok text' ∧ k.lines text text' := by
  cases h with
  | value => exact nomatch hok
  | statement hcode =>
      obtain rfl := Except.ok.inj hok
      exact ⟨_, rfl, hcode⟩

/-- What akin pieces contribute at the top level is akin. -/
lemma Akin.topText (h : p.Akin k p') (hk : k.Composed indent indent') :
    k.lines (Renderer.topText p) (Renderer.topText p') := by
  cases h with
  | @value code code' grade hcode =>
      rw [Renderer.topText, Renderer.topText]
      by_cases hempty : code = ""
      · rw [if_pos hempty, if_pos ((hk.expr_empty hcode).mp hempty)]
        exact hk.lines_empty
      · rw [if_neg hempty, if_neg fun he => hempty ((hk.expr_empty hcode).mpr he)]
        exact hk.lines_break hcode
  | statement hcode => exact hcode

end Piece

namespace Renderer

/-- The same renderer with another indent. -/
def other (r : Renderer) (indent' : String) : Renderer :=
  ⟨r.workspace, { r.style with indent := indent' }, r.handlers⟩

/-- A workspace whose code lasts in a relation, where one run indents with another indent: comments
can be put in front of code, definitions are akin, and if statements cannot be put behind an
expression, then nothing follows an expression. -/
structure Apt (r : Renderer) (k : Kin) (indent' : String) : Prop where
  valid : r.workspace.validate = .ok ()
  handlers : r.handlers = Handler.standard
  dialect : r.style.dialect ∈ Dialect.all
  composed : k.Composed r.style.indent indent'
  stored : k.Stored r.style.indent indent'
  imports : ∀ e ∈ moduleLines, k.definition e.1 e.2 e.2
  written {id full full' : String} : k.name id → k.framed full full' →
    k.definition ("%" ++ id) full full'
  comments {b : Block} {comments : String} : b ∈ r.workspace.blocks → b.type ∉ definers →
    r.commentsFor b = .ok comments → k.lines comments comments
  framed {b : Block} {comments code code' : String} : b ∈ r.workspace.blocks →
    r.commentsFor b = .ok comments → k.lines code code' →
    k.framed (comments ++ code) (comments ++ code')
  followed : (∀ {a a' b b' : String}, k.expr a a' → k.lines b b' → k.expr (a ++ b) (a' ++ b')) ∨
    ∀ b ∈ r.workspace.blocks, b.disabled = false → r.RendersValue b → b.next = none

variable {r : Renderer} {b : Block}

namespace Apt

variable (h : r.Apt k indent')

include h

section Services

variable (hbelow : ∀ c, r.workspace.Enters b c →
  Shadows k reserved (Piece.Akin k) (r.render c) ((r.other indent').render c))

include hbelow

lemma shadows_expression (name : String) (required : Grade) {default : String}
    (hdefault : k.part default default) :
    Shadows k reserved k.part (r.expression r.render b name required default)
      ((r.other indent').expression (r.other indent').render b name required default) := by
  rw [expression_eq, expression_eq]
  refine (shadows_same (r.target? b name .value)).bind fun target _ htarget => ?_
  obtain ⟨rfl, htarget⟩ := htarget
  cases target with
  | none => exact shadows_pure hdefault
  | some c =>
      refine (hbelow c (enters_of_target? htarget)).bind fun piece piece' hpiece => ?_
      exact shadows_ofExcept fun text hok => hpiece.asOperand h.composed hdefault hok

lemma shadows_statements (name : String) :
    Shadows k reserved k.body (r.statements r.render b name)
      ((r.other indent').statements (r.other indent').render b name) := by
  rw [statements_eq, statements_eq]
  refine (shadows_same (r.target? b name .statement)).bind fun target _ htarget => ?_
  obtain ⟨rfl, htarget⟩ := htarget
  have hpiece : Shadows k reserved (Piece.Akin k) (optional r.render target)
      (optional (r.other indent').render target) := by
    cases target with
    | none => exact shadows_pure (.statement h.composed.lines_empty)
    | some c => exact hbelow c (enters_of_target? htarget)
  refine hpiece.bind fun piece piece' hakin => ?_
  exact shadows_ofExcept fun text hok => hakin.asBody h.composed hok

lemma shadows_next {next : Option Block} (hnext : r.workspace.nextOf b = .ok next) :
    Shadows k reserved (Piece.Akin k) (optional r.render next)
      (optional (r.other indent').render next) := by
  cases next with
  | none => exact shadows_pure (.statement h.composed.lines_empty)
  | some c => exact hbelow c (Workspace.enters_of_nextOf hnext)

/-- The same comments stand in front of code, and akin statements after it. -/
lemma shadows_surround (code code' : String) :
    Shadows k reserved
      (fun full full' => ∃ comments rest rest', r.commentsFor b = .ok comments ∧
        full = comments ++ code ++ rest ∧ full' = comments ++ code' ++ rest' ∧
        k.lines rest rest' ∧ (b.next = none → rest = "" ∧ rest' = ""))
      (r.surround r.render b code)
      ((r.other indent').surround (r.other indent').render b code') := by
  rw [surround_eq, surround_eq]
  refine (shadows_same (r.commentsFor b)).bind fun comments _ hcomments => ?_
  obtain ⟨rfl, hcomments⟩ := hcomments
  refine (shadows_same (r.workspace.nextOf b)).bind fun next _ hnext => ?_
  obtain ⟨rfl, hnext⟩ := hnext
  have hpiece : Shadows k reserved
      (fun piece piece' => Piece.Akin k piece piece' ∧
        (b.next = none → piece = .statement "" ∧ piece' = .statement ""))
      (optional r.render next) (optional (r.other indent').render next) := by
    cases hlast : b.next with
    | none =>
        rw [Workspace.nextOf, hlast] at hnext
        obtain rfl := Except.ok.inj hnext
        exact shadows_pure ⟨.statement h.composed.lines_empty, fun _ => ⟨rfl, rfl⟩⟩
    | some id => exact (h.shadows_next hbelow hnext).mono fun _ _ hakin => ⟨hakin, fun hnone => by cases hnone⟩
  refine hpiece.bind fun piece piece' hakin => ?_
  obtain ⟨hakin, hlast⟩ := hakin
  have hrest : Shadows k reserved
      (fun rest rest' => k.lines rest rest' ∧ (b.next = none → rest = "" ∧ rest' = ""))
      (Running.ofExcept (piece.asRest b.type)) (Running.ofExcept (piece'.asRest b.type)) := by
    refine shadows_ofExcept fun rest hok => ?_
    obtain ⟨rest', hok', hrest⟩ : ∃ rest', piece'.asRest b.type = .ok rest' ∧ k.lines rest rest' :=
      hakin.asRest hok
    refine ⟨rest', hok', hrest, fun hnone => ?_⟩
    obtain ⟨rfl, rfl⟩ := hlast hnone
    exact ⟨(Except.ok.inj hok).symm, (Except.ok.inj hok').symm⟩
  refine hrest.bind fun rest rest' hboth => shadows_pure ?_
  exact ⟨comments, rest, rest', hcomments, rfl, rfl, hboth⟩

/-- The handler of a block is answered alike. -/
lemma shadows_plan {R : Outcome → Outcome → Prop} {p p' : Plan Outcome} (hb : b ∈ r.workspace.blocks)
    (hplan : Plan.Akin k R p p') :
    Shadows k reserved R (p.run r.style.indent (r.services r.render b))
      (p'.run indent' ((r.other indent').services (r.other indent').render b)) := by
  refine hplan.shadows h.stored
    (fun name required default hdefault => h.shadows_expression hbelow name required hdefault)
    (fun name => h.shadows_statements hbelow name) fun code code' hcode => ?_
  refine (h.shadows_surround hbelow code code').mono fun full full' hfull => ?_
  obtain ⟨comments, rest, rest', hcomments, rfl, rfl, hrest, -⟩ := hfull
  rw [String.append_assoc, String.append_assoc]
  exact h.framed hb hcomments (h.composed.lines_append hcode hrest)

/-- **One block.** If the blocks below are rendered to akin code, so is the block, or it is an
expression after which something follows, and statements cannot be put behind it. -/
lemma shadows_step (hb : b ∈ r.workspace.blocks) :
    Shadows k reserved
      (fun piece piece' => Piece.Akin k piece piece' ∨ (b.disabled = false ∧ b.next ≠ none ∧
        (r.RendersValue b → b.next = none) ∧ ∃ code grade, piece = .value code grade))
      (r.render b) ((r.other indent').render b) := by
  rw [render_eq_step h.valid hb, render_eq_step (r := r.other indent') h.valid hb, step, step]
  by_cases hdisabled : b.disabled = true
  · rw [if_pos hdisabled, if_pos hdisabled]
    refine (shadows_same (r.workspace.nextOf b)).bind fun next _ hnext => ?_
    obtain ⟨rfl, hnext⟩ := hnext
    exact (h.shadows_next hbelow hnext).mono fun _ _ => .inl
  rw [if_neg hdisabled, if_neg hdisabled]
  refine (shadows_same (r.handlers.resolve b.type)).bind fun handler _ hresolve => ?_
  obtain ⟨rfl, hresolve⟩ := hresolve
  rw [h.handlers] at hresolve
  by_cases htype : b.type ∈ definers
  · obtain rfl := Except.ok.inj ((Handler.resolve_standard
      (Handler.lookup_of_mem_definers htype)).symm.trans hresolve)
    have hlawful : k.Lawful r.site.indent indent' := h.composed.toLawful
    have hplan := Handler.akin_definition hlawful b.face h.dialect fun _ _ _ => h.written
    refine (h.shadows_plan hbelow hb hplan).bind fun outcome outcome' houtcome => ?_
    obtain ⟨rfl, rfl⟩ := houtcome
    exact shadows_pure (.inl (.statement h.composed.lines_empty))
  have hlawful : k.Lawful r.site.indent indent' := h.composed.toLawful
  have hplan := Handler.akin_of_resolve hlawful b.face h.dialect h.imports hresolve htype
  refine (h.shadows_plan hbelow hb hplan).bind fun outcome outcome' houtcome => ?_
  cases houtcome with
  | @value code code' grade hcode =>
      refine (h.shadows_surround hbelow code code').bind fun full full' hfull => shadows_pure ?_
      obtain ⟨comments, rest, rest', hcomments, rfl, rfl, hrest, hlast⟩ := hfull
      have hfront := h.composed.lines_expr (h.comments hb htype hcomments) hcode
      rcases h.followed with happend | hnever
      · exact .inl (.value (happend hfront hrest))
      by_cases hnext : b.next = none
      · obtain ⟨rfl, rfl⟩ := hlast hnext
        rw [String.append_empty, String.append_empty]
        exact .inl (.value hfront)
      · rw [Bool.not_eq_true] at hdisabled
        exact .inr ⟨hdisabled, hnext, hnever b hb hdisabled, _, _, rfl⟩
  | @statement code code' hcode =>
      refine (h.shadows_surround hbelow code code').bind fun full full' hfull => shadows_pure ?_
      obtain ⟨comments, rest, rest', hcomments, rfl, rfl, hrest, -⟩ := hfull
      refine .inl (.statement (h.composed.lines_append ?_ hrest))
      exact h.composed.lines_append (h.comments hb htype hcomments) hcode
  | nothing => exact shadows_pure (.inl (.statement h.composed.lines_empty))

end Services

/-- **Blocks are rendered to akin code.** -/
theorem shadows_render (hb : b ∈ r.workspace.blocks) :
    Shadows k r.style.dialect.reserved (Piece.Akin k) (r.render b) ((r.other indent').render b) := by
  -- by induction from the blocks that are entered to those that enter them
  refine Workspace.fuel_induction (P := fun _ b => b ∈ r.workspace.blocks →
    Shadows k r.style.dialect.reserved (Piece.Akin k) (r.render b) ((r.other indent').render b))
    h.valid ?_ hb (Nat.le_refl r.workspace.size) hb
  intro _ b ih hb s s' hs hakin piece t hrun
  obtain ⟨piece', t', hrun', hpieces, ht, hstates⟩ :=
    h.shadows_step (fun c hc => ih c hc hc.mem) hb s s' hs hakin piece t hrun
  rcases hpieces with hpieces | ⟨henabled, hnext, hnever, code, grade, rfl⟩
  · exact ⟨piece', t', hrun', hpieces, ht, hstates⟩
  · exact absurd (hnever ⟨s, t, code, grade, hs, hrun⟩) hnext

/-- The body of the program is made of akin statements. -/
theorem shadows_renderTops : Shadows k r.style.dialect.reserved
    (fun body body' => ∃ texts texts', List.Forall₂ k.lines texts texts' ∧
      (∀ text ∈ texts, text ≠ "") ∧ body = "\n".intercalate texts ∧
      body' = "\n".intercalate texts')
    r.renderTops (r.other indent').renderTops := by
  have htexts : Shadows k r.style.dialect.reserved (List.Forall₂ k.lines)
      (r.workspace.topBlocks.mapM fun b => do return topText (← r.render b))
      (r.workspace.topBlocks.mapM fun b => do return topText (← (r.other indent').render b)) := by
    refine Running.shadows_mapM fun b hb => ?_
    refine (h.shadows_render (Workspace.mem_topBlocks_iff.mp hb).1).bind fun piece piece' hpiece => ?_
    exact shadows_pure (hpiece.topText h.composed)
  refine htexts.bind fun texts texts' hall => shadows_pure ?_
  refine ⟨_, _, ?_, fun text htext => by simpa using (List.mem_filter.mp htext).2, rfl, rfl⟩
  induction hall with
  | nil => exact .nil
  | @cons text text' rest rest' htext _ ih =>
      by_cases hempty : text = ""
      · rw [List.filter_cons_of_neg (by simpa using hempty),
          List.filter_cons_of_neg (by simpa using (h.composed.lines_nonempty htext).mp hempty)]
        exact ih
      · rw [List.filter_cons_of_pos (by simpa using hempty), List.filter_cons_of_pos
          (by simpa using fun he => hempty ((h.composed.lines_nonempty htext).mpr he))]
        exact .cons htext ih

end Apt

end Renderer

end Blockscribe
