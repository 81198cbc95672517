/-
Rendered statements are whole lines.

* `Piece.Whole`, `Outcome.Whole`: statements that are empty or end with a line feed.
* `Workspace.ended_commentsFor`: comments are whole lines, those of procedures included.
* `Handler.ensures_whole`: every standard handler gives whole lines if it is given whole lines; a
  handler that defines a procedure gives nothing.
* `Renderer.ensures_statements`, `ensures_surround`: so do the services of a block.
* `whole_render`: the statements of every block are whole lines, with the standard handlers.
-/
import Blockscribe.Proofs.Handler.Alike
import Blockscribe.Proofs.Plan.Ensures
import Blockscribe.Proofs.Render.Comments
import Blockscribe.Proofs.Render.Outcome

namespace Blockscribe

open Text (Ended)

variable {reserved : List String}

/-- Statements are whole lines. -/
def Piece.Whole : Piece → Prop
  | statement code => Ended code.toList
  | value .. => True

/-- Statements are whole lines. -/
def Outcome.Whole : Outcome → Prop
  | statement code => Ended code.toList
  | _ => True

/-- A text of whole lines is empty or ends with a line feed. -/
lemma Text.Ended.eq_nil_or {cs : List Char} (h : Ended cs) : cs = [] ∨ ∃ front, cs = front ++ ['\n'] := by
  induction h with
  | nil => exact .inl rfl
  | @line l rest _ _ ih =>
      rcases ih with rfl | ⟨front, rfl⟩
      · exact .inr ⟨l, rfl⟩
      · exact .inr ⟨l ++ '\n' :: front, by rw [List.append_assoc, List.cons_append]⟩

lemma eq_empty_or_of_ended {text : String} (h : Ended text.toList) :
    text = "" ∨ ∃ front, text = front ++ "\n" := by
  rcases h.eq_nil_or with hnil | ⟨front, hfront⟩
  · exact .inl (String.toList_eq_nil_iff.mp hnil)
  · refine .inr ⟨String.ofList front, String.toList_injective ?_⟩
    rw [hfront, String.toList_append, String.toList_ofList]
    rfl

lemma ended_append {a b : String} (ha : Ended a.toList) (hb : Ended b.toList) :
    Ended (a ++ b).toList := by
  rw [String.toList_append]
  exact ha.append hb

/-! ### Comments -/

namespace Workspace

variable {w : Workspace} {b : Block} {comments : String} {dialect : Dialect} {width : Extent}
  {isProcedure : Bool}

lemma ended_ofLines (lead : String) : OfLines lead fun text => Ended text.toList where
  empty := .nil
  append := ended_append
  leadLines text := by
    rw [toList_leadLines]
    exact Text.ended_leadLines (ended_break text) (toList_ne_nil (break_ne_empty text)) _

lemma ended_ownComment (h : ownComment dialect width isProcedure b = .ok comments) :
    Ended comments.toList := by
  cases isProcedure with
  | false => exact ofLines_ownComment (ended_ofLines _) h
  | true =>
      obtain ⟨comment, -, hrest⟩ := bind_eq_ok h
      by_cases hempty : comment = ""
      · rw [if_pos hempty] at hrest
        exact Except.ok.inj hrest ▸ .nil
      · rw [if_neg hempty, if_pos rfl] at hrest
        exact Except.ok.inj hrest ▸ ended_break _

/-- Comments are whole lines. -/
lemma ended_commentsFor (h : w.commentsFor dialect width isProcedure b = .ok comments) :
    Ended comments.toList := by
  rw [commentsFor] at h
  split at h
  · exact Except.ok.inj h ▸ .nil
  · obtain ⟨own, hown, hrest⟩ := bind_eq_ok h
    obtain ⟨plugged, hplugged, hboth⟩ := bind_eq_ok hrest
    exact Except.ok.inj hboth ▸
      ended_append (ended_ownComment hown) (ofLines_pluggedComments (ended_ofLines _) hplugged)

end Workspace

/-! ### Handlers -/

namespace Handler

open Plan

variable {S U : String → Prop}

/-- A handler that defines a procedure gives nothing, whatever it is answered. -/
lemma ensures_definition (site : Site) (face : Face) :
    (Procedures.definition site face).Ensures S U (· = .nothing) := by
  refine (yields_require _).ensures.bind fun names _ => ?_
  have hvariables : ∀ vs : List String, (vs.mapM variableNamed).Yields fun _ => True := fun vs =>
    yields_mapM fun _ _ _ _ => trivial
  refine (hvariables _).ensures.bind fun shared _ => ?_
  refine (yields_nameField _ _ _).ensures.bind fun name _ => ?_
  refine (yields_procedureNamed name).ensures.bind fun identifier _ => ?_
  refine Ensures.bind (P := fun _ => True) (fun _ _ => trivial) fun branch _ => ?_
  refine (yields_expr _ _ _).ensures.bind fun result _ => ?_
  refine (hvariables names).ensures.bind fun arguments _ => ?_
  refine Ensures.bind (P := fun _ => True) (fun _ _ => trivial) fun code _ => ?_
  exact (yields_writeDefinition _ code).ensures.bind fun _ _ => rfl

/-- The standard handlers give whole lines if they are given whole lines. -/
lemma ensures_whole {type : String} {h : Handler} (hresolve : standard.resolve type = .ok h)
    (site : Site) (face : Face) :
    (h site face).Ensures (fun code => Ended code.toList) (fun _ => True) Outcome.Whole := by
  by_cases htype : type ∈ Procedures.definers
  · have hdefinition := resolve_standard (lookup_of_mem_definers htype)
    obtain rfl := Except.ok.inj (hdefinition.symm.trans hresolve)
    refine (ensures_definition site face).mono (fun _ h => h) (fun _ h => h) ?_
    rintro _ rfl
    exact trivial
  · have halike := alike_of_resolve (U := fun _ _ => True) hresolve htype site face
    refine halike.ensures.mono (fun _ hcode => .refl hcode) (fun _ h => h) fun outcome hsame => ?_
    cases hsame with
    | value _ => exact trivial
    | statement _ hcode => exact hcode.ended
    | nothing => exact trivial

end Handler

/-! ### Rendering -/

namespace Renderer

variable {r : Renderer} {below : Block → Running Piece}

section Services

variable (hbelow : ∀ c, Running.Ensures reserved Piece.Whole (below c))

include hbelow

lemma ensures_optional (target : Option Block) :
    Running.Ensures reserved Piece.Whole (optional below target) := by
  cases target with
  | none => exact Running.ensures_pure .nil
  | some c => exact hbelow c

lemma ensures_expression (b : Block) (name : String) (required : Grade) (default : String) :
    Running.Ensures reserved (fun _ => True) (r.expression below b name required default) := by
  rw [expression_eq]
  refine (Running.ensures_ofExcept (P := fun _ => True) fun _ _ => trivial).bind fun target _ => ?_
  cases target with
  | none => exact Running.ensures_pure trivial
  | some c => exact (hbelow c).bind fun _ _ => Running.ensures_ofExcept fun _ _ => trivial

/-- The statements in a socket are whole lines. -/
lemma ensures_statements (b : Block) (name : String) :
    Running.Ensures reserved (fun code => Ended code.toList) (r.statements below b name) := by
  rw [statements_eq]
  refine (Running.ensures_ofExcept (P := fun _ => True) fun _ _ => trivial).bind fun target _ => ?_
  refine (ensures_optional hbelow target).bind fun piece hpiece => ?_
  refine Running.ensures_ofExcept fun body hbody => ?_
  cases piece with
  | value code grade => exact nomatch hbody
  | statement code =>
      rw [Piece.asBody] at hbody
      obtain rfl := Except.ok.inj hbody
      split
      · exact .nil
      · rename_i hcode
        rw [toList_leadLines]
        exact Text.ended_leadLines hpiece (toList_ne_nil hcode) _

/-- Around code stand whole lines. -/
lemma ensures_surround (b : Block) (code : String) :
    Running.Ensures reserved
      (fun full => ∃ comments rest, full = comments ++ code ++ rest ∧ Ended comments.toList ∧
        Ended rest.toList)
      (r.surround below b code) := by
  rw [surround_eq]
  refine (Running.ensures_ofExcept fun comments hok => hok).bind fun comments hcomments => ?_
  refine (Running.ensures_ofExcept (P := fun _ => True) fun _ _ => trivial).bind fun next _ => ?_
  refine (ensures_optional hbelow next).bind fun piece hpiece => ?_
  have hrest : Running.Ensures reserved (fun rest => Ended rest.toList)
      (Running.ofExcept (piece.asRest b.type)) := by
    refine Running.ensures_ofExcept fun rest hrest => ?_
    cases piece with
    | value code grade => exact nomatch hrest
    | statement code => exact Except.ok.inj hrest ▸ hpiece
  refine hrest.bind fun rest hrest => Running.ensures_pure ?_
  exact ⟨comments, rest, rfl, Workspace.ended_commentsFor hcomments, hrest⟩

lemma ensures_step (hr : r.handlers = Handler.standard) (b : Block) :
    Running.Ensures reserved Piece.Whole (r.step below b) := by
  rw [step]
  split
  · refine (Running.ensures_ofExcept (P := fun _ => True) fun _ _ => trivial).bind fun next _ => ?_
    exact ensures_optional hbelow next
  · refine (Running.ensures_ofExcept fun handler hok => hok).bind fun handler hresolve => ?_
    have hplan : Running.Ensures reserved Outcome.Whole
        ((handler r.site b.face).run r.style.indent (r.services below b)) :=
      (Handler.ensures_whole (hr ▸ hresolve) r.site b.face).run
        (ensures_expression hbelow b) (ensures_statements hbelow b)
        fun code => (ensures_surround hbelow b code).mono fun _ _ => trivial
    refine hplan.bind fun outcome houtcome => ?_
    cases outcome with
    | value code grade =>
        exact (ensures_surround hbelow b code).bind fun _ _ => Running.ensures_pure trivial
    | statement code =>
        refine (ensures_surround hbelow b code).bind fun full hfull => Running.ensures_pure ?_
        obtain ⟨comments, rest, rfl, hcomments, hrest⟩ := hfull
        exact ended_append (ended_append hcomments houtcome) hrest
    | nothing => exact Running.ensures_pure .nil
    | other kindName => exact Running.ensures_throw _

end Services

/-- **Rendered statements are whole lines.** Whatever a block is rendered to, from a state in which
identifiers come from requests, its statements and those that follow are empty or end with a line
feed. -/
theorem whole_render (hr : r.handlers = Handler.standard) (b : Block) :
    Running.Ensures reserved Piece.Whole (r.render b) := by
  have hdepth : ∀ n b, Running.Ensures reserved Piece.Whole (r.renderTo n b) := by
    intro n
    induction n with
    | zero => exact fun _ => Running.ensures_throw _
    | succ n ih => exact ensures_step ih hr
  exact hdepth _ b

end Renderer

end Blockscribe
