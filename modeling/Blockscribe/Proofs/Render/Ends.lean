/-
How rendering a block ends.

* `Piece.Sound`: an expression that is a numeral is one to which an offset can be applied, and
  statements are nothing or in no numeral.
* `Renderer.Stops`: the faults with which rendering can end, reports and the slips of enabled
  blocks.
* `Renderer.Ready`: a workspace and a style as they are given to the generator.
* `ends_step`, `ends_render`, `ends_renderTops`: rendering ends with sound code or with such a
  fault, so an index never stops it.
* `exists_run_render_of_slip?`: a block with a slip is never rendered.
-/
import Blockscribe.Proofs.Handler.Faults
import Blockscribe.Proofs.Render.Advances
import Blockscribe.Proofs.Render.Remarks
import Blockscribe.Proofs.Settings.Style

namespace Blockscribe

open Handler (slip? Mishap Made)
open Number (Folds Foreign Inert)
open Running (Ends ends_pure ends_throw ends_ofExcept)

variable {α : Type} {reserved : List String}

/-- A numeral among the expressions is one to which an offset can be applied; statements are
nothing, or they are in no numeral. -/
def Piece.Sound : Piece → Prop
  | value code _ => Folds code
  | statement code => Inert code

/-- The same of what a handler makes of its block, which gives no value of another kind. -/
def Outcome.Sound : Outcome → Prop
  | value code _ => Folds code
  | statement code => Foreign code
  | nothing => True
  | other _ => False

/-- The comments in front of a block are nothing or in no numeral. -/
lemma Commentary.inert {comments : String} (h : Commentary comments) : Inert comments := by
  cases hcs : comments.toList with
  | nil => exact .inl (String.toList_eq_nil_iff.mp hcs)
  | cons c rest =>
      refine .inr ⟨c, hcs ▸ List.mem_cons_self, ?_⟩
      rcases h c (by rw [hcs]; rfl) with rfl | rfl <;> decide

/-- What is given is no fault. -/
lemma Fault.Gives.only {P : α → Prop} {F : Fault → Prop} {e : Except Fault α}
    (h : Fault.Gives P e) : Fault.Only F e := by
  obtain ⟨a, rfl, -⟩ := h
  exact Fault.only_ok a

/-! ### What becomes of sound pieces -/

namespace Piece

variable {p : Piece} {type name default indent text : String} {required : Grade}

lemma refused_asOperand :
    Fault.Only Fault.IsRefusal (p.asOperand type name required default) := by
  cases p with
  | statement code =>
      rw [asOperand]
      split
      · exact Fault.only_ok _
      · exact Fault.only_error_iff.mpr trivial
  | value code grade =>
      rw [asOperand]
      split
      · exact Fault.only_ok _
      · split
        · exact Fault.only_ok _
        · exact Fault.only_error_iff.mpr trivial

lemma refused_asBody : Fault.Only Fault.IsRefusal (p.asBody type name indent) := by
  cases p with
  | statement code => exact Fault.only_ok _
  | value code grade => exact Fault.only_error_iff.mpr trivial

lemma refused_asRest : Fault.Only Fault.IsRefusal (p.asRest type) := by
  cases p with
  | statement code => exact Fault.only_ok _
  | value code grade => exact Fault.only_error_iff.mpr trivial

/-- Parentheses are in no numeral. -/
lemma Sound.asOperand (h : p.Sound) (hok : p.asOperand type name required default = .ok text) :
    Folds text ∨ text = default := by
  cases p with
  | statement code =>
      rw [Piece.asOperand] at hok
      split at hok
      · exact .inr (Except.ok.inj hok).symm
      · cases hok
  | value code grade =>
      rw [Piece.asOperand] at hok
      split at hok
      · exact .inr (Except.ok.inj hok).symm
      · split at hok
        · rename_i wrapped hresolve
          obtain rfl := Except.ok.inj hok
          refine .inl ?_
          rcases eq_or_parenthesized hresolve with rfl | rfl
          · exact h
          · exact Foreign.folds (by simp +decide)
        · cases hok

lemma Sound.asRest (h : p.Sound) (hok : p.asRest type = .ok text) : Inert text := by
  cases p with
  | statement code => exact Except.ok.inj hok ▸ h
  | value code grade => cases hok

end Piece

/-! ### What handlers make -/

namespace Handler

variable {site : Site} {face : Face} {slip : Option Fault}

/-- The index of an empty socket is a numeral to which an offset can be applied. -/
lemma folds_firstIndex (site : Site) : Folds (firstIndex site) := by
  rw [firstIndex]
  split
  · exact Number.folds_toString (i := 1) (by decide +kernel)
  · exact Number.folds_toString (i := 0) (by decide +kernel)

/-- Where every numeral is such a one, a handler ends with a report or the slip of its block. -/
lemma Mishap.refusal_or_slip {fault : Fault} (h : Mishap Folds site face slip fault) :
    fault.IsRefusal ∨ slip = some fault := by
  cases h with
  | combination => exact .inl trivial
  | slip hslip => exact .inr hslip
  | @index numeral shift negate fault hknown hnumeral hfolded =>
      have hfolds : Folds numeral := hknown.elim id fun h => h ▸ folds_firstIndex site
      obtain ⟨folded, hok⟩ := hfolds hnumeral shift negate
      cases hfolded.symm.trans hok

/-- A field with a double that double precision has stands for a number with a numeral of this kind.
-/
lemma folds_numberOutcome {x : Double} (h : x.Bounded) : (Variables.numberOutcome x).Sound := by
  cases x with
  | nan => exact Foreign.folds (by decide)
  | infinite negative => cases negative <;> exact Foreign.folds (by decide)
  | finite negative m e => exact Number.folds_plainText h

lemma Made.sound {outcome : Outcome} (h : Made (isIdentifier · = true) site face outcome)
    (hdialect : site.dialect ∈ Dialect.all)
    (hbounded : ∀ y, face.fieldOr "NUM" (.int 0) = .real y → y.Bounded) : outcome.Sound := by
  cases h with
  | value grade hcode => exact Number.folds_of_not_isNumeral hcode
  | name grade hid => exact (Number.foreign_of_isIdentifier hid).folds
  | number hx => exact folds_numberOutcome (Value.bounded_of_toDouble hbounded hx)
  | statement hcode => exact hcode
  | output message =>
      have houtput : ∀ d ∈ Dialect.all, Foreign d.output.before := by decide
      rw [Dialect.outputStatement, Template.fill]
      exact (((houtput _ hdialect).append_right _).append_right _).append_right _
  | nothing => exact trivial

end Handler

/-! ### Rendering -/

namespace Renderer

/-- Reports, and the slips of enabled blocks. -/
def Stops (r : Renderer) (fault : Fault) : Prop :=
  fault.IsRefusal ∨
    ∃ b ∈ r.workspace.blocks, b.disabled = false ∧ slip? b.type b.face = some fault

/-- An accepted workspace whose comments are texts and whose numbers are doubles, with a style in
which programs can be written and the standard handlers. -/
structure Ready (r : Renderer) : Prop where
  handlers : r.handlers = Handler.standard
  style : r.style.Writable
  wellFormed : r.workspace.WellFormed
  valid : r.workspace.validate = .ok ()
  remarks : ∀ b ∈ r.workspace.blocks, b.comment.IsRemark
  bounded : ∀ b ∈ r.workspace.blocks, ∀ entry ∈ b.fields, ∀ x, entry.2 = .real x → x.Bounded

variable {r : Renderer} {below : Block → Running Piece} {b : Block}

lemma Ready.bounded_fieldOr (h : r.Ready) (hb : b ∈ r.workspace.blocks) (y : Double)
    (hy : b.face.fieldOr "NUM" (.int 0) = .real y) : y.Bounded := by
  rw [Face.fieldOr] at hy
  cases hget : b.face.fields.get? "NUM" with
  | none =>
      rw [hget] at hy
      cases hy
  | some v =>
      rw [hget] at hy
      exact h.bounded b hb _ (Handler.mem_of_lookup hget) y hy

section Services

variable (hbelow : ∀ c, r.workspace.Enters b c → Ends reserved r.Stops Piece.Sound (below c))

include hbelow

lemma ends_optional {target : Option Block} (h : r.workspace.nextOf b = .ok target) :
    Ends reserved r.Stops Piece.Sound (optional below target) := by
  cases target with
  | none => exact ends_pure Number.inert_empty
  | some c => exact hbelow c (Workspace.enters_of_nextOf h)

lemma ends_expression (name : String) (required : Grade) (default : String) :
    Ends reserved r.Stops (fun code => Folds code ∨ code = default)
      (r.expression below b name required default) := by
  rw [expression_eq]
  refine (ends_ofExcept ((refused_target? b name .value).mono fun _ => .inl)
    fun _ h => h).bind fun target htarget => ?_
  cases target with
  | none => exact ends_pure (.inr rfl)
  | some c =>
      refine (hbelow c (enters_of_target? htarget)).bind fun piece hpiece => ?_
      exact ends_ofExcept (Piece.refused_asOperand.mono fun _ => .inl) fun _ h =>
        hpiece.asOperand h

lemma ends_statements (name : String) :
    Ends reserved r.Stops (fun _ => True) (r.statements below b name) := by
  rw [statements_eq]
  refine (ends_ofExcept ((refused_target? b name .statement).mono fun _ => .inl)
    fun _ h => h).bind fun target htarget => ?_
  have hpiece : Ends reserved r.Stops Piece.Sound (optional below target) := by
    cases target with
    | none => exact ends_pure Number.inert_empty
    | some c => exact hbelow c (enters_of_target? htarget)
  refine hpiece.bind fun piece _ => ?_
  exact ends_ofExcept (Piece.refused_asBody.mono fun _ => .inl) fun _ _ => trivial

/-- Around code stand comments and statements that are nothing or in no numeral. -/
lemma ends_surround (h : r.Ready) (hb : b ∈ r.workspace.blocks) (code : String) :
    Ends reserved r.Stops
      (fun full => ∃ comments rest, full = comments ++ code ++ rest ∧ Inert comments ∧ Inert rest)
      (r.surround below b code) := by
  have hcomments : Ends reserved r.Stops Inert (Running.ofExcept (r.commentsFor b)) := by
    have hgives := Workspace.gives_commentsFor h.wellFormed h.valid h.remarks hb h.style.width
      r.style.dialect (r.handlers.isProcedure b.type)
    exact ends_ofExcept hgives.only fun comments hok =>
      (Workspace.commentary_commentsFor h.style.dialect hok).inert
  rw [surround_eq]
  refine hcomments.bind fun comments hinert => ?_
  refine (ends_ofExcept ((Workspace.refused_nextOf b).mono fun _ => .inl)
    fun _ h => h).bind fun next hnext => ?_
  refine (ends_optional hbelow hnext).bind fun piece hpiece => ?_
  have hrest : Ends reserved r.Stops Inert (Running.ofExcept (piece.asRest b.type)) :=
    ends_ofExcept (Piece.refused_asRest.mono fun _ => .inl) fun _ hok => hpiece.asRest hok
  exact hrest.bind fun rest hrest => ends_pure ⟨comments, rest, rfl, hinert, hrest⟩

/-- **One block.** If the blocks below end with sound code or a fault of this kind, so does the
block. -/
lemma ends_step (h : r.Ready) (hb : b ∈ r.workspace.blocks) :
    Ends reserved r.Stops Piece.Sound (r.step below b) := by
  rw [step]
  split
  · refine (ends_ofExcept ((Workspace.refused_nextOf b).mono fun _ => .inl)
      fun _ h => h).bind fun next hnext => ?_
    exact ends_optional hbelow hnext
  rename_i henabled
  rw [h.handlers]
  refine (ends_ofExcept ((Handler.refused_resolve b.type).mono fun _ => .inl)
    fun _ h => h).bind fun handler hresolve => ?_
  have hplan : Ends reserved r.Stops Outcome.Sound
      ((handler r.site b.face).run r.style.indent (r.services below b)) := by
    have hmeets := Handler.meets_of_mem_standardTable (A := Folds) (B := (isIdentifier · = true))
      (Handler.mem_of_lookup (Handler.lookup_of_resolve hresolve)) r.site b.face
    refine (hmeets.mono (fun fault hfault => ?_) fun outcome houtcome =>
      houtcome.sound h.style.dialect (h.bounded_fieldOr hb)).run (ends_expression hbelow)
      (ends_statements hbelow)
      fun code => (ends_surround hbelow h hb code).mono (fun _ h => h) fun _ _ => trivial
    exact hfault.refusal_or_slip.imp id fun hslip =>
      ⟨b, hb, Bool.eq_false_iff.mpr henabled, hslip⟩
  refine hplan.bind fun outcome houtcome => ?_
  cases outcome with
  | value code grade =>
      refine (ends_surround hbelow h hb code).bind fun full hfull => ends_pure ?_
      obtain ⟨comments, rest, rfl, hcomments, hrest⟩ := hfull
      exact Number.Folds.between houtcome hcomments hrest
  | statement code =>
      refine (ends_surround hbelow h hb code).bind fun full hfull => ends_pure ?_
      obtain ⟨comments, rest, rfl, -, -⟩ := hfull
      exact ((Foreign.append_left houtcome comments).append_right rest).inert
  | nothing => exact ends_pure Number.inert_empty
  | other kindName => exact houtcome.elim

end Services

/-- **Every rendering ends with sound code, with a report, or with the slip of an enabled block.**
-/
theorem ends_render (h : r.Ready) (hb : b ∈ r.workspace.blocks) :
    Ends reserved r.Stops Piece.Sound (r.render b) := by
  refine Workspace.fuel_induction (P := fun n b => b ∈ r.workspace.blocks →
    Ends reserved r.Stops Piece.Sound (r.renderTo n b)) h.valid ?_ hb (Nat.le_succ _) hb
  intro n b ih hb
  exact ends_step (fun c hc => ih c hc hc.mem) h hb

lemma ends_renderTops (h : r.Ready) : Ends reserved r.Stops (fun _ => True) r.renderTops := by
  refine (Running.ends_mapM fun b hb => ?_).bind fun texts _ => ends_pure trivial
  exact (ends_render h (Workspace.mem_topBlocks_iff.mp hb).1).bind fun _ _ => ends_pure trivial

/-- **A block with a slip is never rendered.** Whatever the state is in which it is entered,
rendering it ends with that fault. -/
theorem exists_run_render_of_slip? (h : r.Ready) (hb : b ∈ r.workspace.blocks)
    (henabled : b.disabled = false) {fault : Fault} (hslip : slip? b.type b.face = some fault)
    (s : Run) : ∃ t, (r.render b).run s = .error fault t := by
  obtain ⟨handler, hlookup⟩ := Handler.exists_lookup_of_slip? hslip
  have hfails : (handler r.site b.face).Fails fault := Handler.fails_of_slip? hslip hlookup
  obtain ⟨t, ht⟩ := hfails.exists_run r.style.indent (r.services r.render b) s
  refine ⟨t, ?_⟩
  rw [render_eq_outcome h.valid hb henabled, outcome, h.handlers, Handler.resolve_standard hlookup]
  show (((handler r.site b.face).run r.style.indent (r.services r.render b)) >>=
    r.complete b).run s = .error fault t
  rw [EStateM.run_bind, ht]

end Renderer

end Blockscribe
