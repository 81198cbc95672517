/-
What the standard handlers make of the statements that they are given.

* `Outcome.Same`: outcomes with the same code. An expression is never empty, and statements are whole
  lines.
* `Plan.Settled`: a plan that asks for no statements, and whose outcomes are such.
* `alike_conditional`: the one handler that puts statements into others keeps their code.
* `alike_of_resolve`: all standard handlers but those that define procedures give outcomes with the
  same code for statements with the same code.
-/
import Blockscribe.Proofs.Handler.Registry
import Blockscribe.Proofs.Number.Numeral
import Blockscribe.Proofs.Plan.Yields
import Blockscribe.Proofs.Text.CodeLines

namespace Blockscribe

/-- Outcomes with the same code. -/
inductive Outcome.Same : Outcome → Outcome → Prop
  | value {code : String} {grade : Grade} : code ≠ "" → Same (.value code grade) (.value code grade)
  | statement {code code' : String} : code ≠ "" → SameCode code code' →
      Same (.statement code) (.statement code')
  | nothing : Same .nothing .nothing

/-- The plan asks for no statements, and its outcomes are expressions that are not empty or
statements of whole lines. -/
abbrev Plan.Settled (p : Plan Outcome) : Prop := p.Yields fun outcome => outcome.Same outcome

namespace Handler

open Plan

variable {U : String → String → Prop}

/-! ### Outcomes -/

lemma settled_expr {code : String} {rank : Rank} (h : code ≠ "") :
    (pure (.expr code rank) : Plan Outcome).Settled :=
  yields_pure (.value h)

/-- Statements that end with a given line end are whole lines. -/
lemma settled_statement {lines last : String} (h : Text.Ended last.toList) (hne : last ≠ "") :
    (pure (.statement (lines ++ last)) : Plan Outcome).Settled := by
  refine yields_pure (.statement (append_ne_empty_right hne) (.refl ?_))
  rw [String.toList_append]
  exact h.append_left (toList_ne_nil hne) _

lemma settled_line (line : String) : (pure (.statement (line ++ "\n")) : Plan Outcome).Settled :=
  settled_statement (ended_break "") (break_ne_empty "")

lemma settled_call (line : String) : (pure (.statement (line ++ ")\n")) : Plan Outcome).Settled :=
  settled_statement (ended_break ")") (break_ne_empty ")")

lemma sameCode_bodyOr (site : Site) {branch branch' : String} (h : SameCode branch branch') :
    SameCode (site.bodyOr branch) (site.bodyOr branch') := by
  rw [Site.bodyOr, Site.bodyOr]
  by_cases hempty : branch = ""
  · rw [if_pos hempty, if_pos (h.empty.mp hempty)]
    exact .refl (ended_break _)
  · rw [if_neg hempty, if_neg fun he => hempty (h.empty.mpr he)]
    exact h

/-! ### Indexes -/

lemma yields_require {α : Type} (e : Except Fault α) :
    (Procedures.require e).Yields fun _ => True := by
  cases e with
  | ok a => exact trivial
  | error fault => exact trivial

lemma yields_indexAt (site : Site) (socket : String) (offset : Int) (negate : Bool) :
    (indexAt site socket offset negate).Yields fun _ => True := by
  refine (yields_expr _ _ _).bind_any fun index => ?_
  split
  · split
    · exact yields_pure trivial
    · exact yields_fail
  · exact yields_pure trivial

lemma yields_sliceStart (site : Site) (face : Face) (operation : String) :
    (sliceStart site face operation).Yields fun _ => True := by
  rw [sliceStart]
  split
  · exact (yields_indexAt _ _ _ _).bind_any fun _ => yields_pure trivial
  split
  · exact yields_indexAt _ _ _ _
  split
  · exact yields_pure trivial
  · exact yields_refuse

lemma yields_sliceEnd (site : Site) (face : Face) (operation : String) :
    (sliceEnd site face operation).Yields fun _ => True := by
  rw [sliceEnd]
  split
  · exact yields_indexAt _ _ _ _
  split
  · refine (yields_indexAt _ _ _ _).bind_any fun stop => ?_
    split
    · exact (yields_writeDefinition _ _).bind_any fun _ => yields_pure trivial
    · exact yields_pure trivial
  split
  · exact yields_pure trivial
  · exact yields_refuse

lemma settled_slice (site : Site) (face : Face) (operation sequence : String) :
    (slice site face operation sequence).Settled :=
  (yields_sliceStart _ _ _).bind_any fun _ => (yields_sliceEnd _ _ _).bind_any fun _ =>
    settled_expr (append_ne_empty_right (by decide))

/-! ### Lists -/

lemma yields_operands (word default : String) (count : Nat) :
    (Lists.operands word default count).Yields fun _ => True :=
  yields_mapM fun _ _ => yields_expr _ _ _

lemma yields_importRandom : Lists.importRandom.Yields fun _ => True := yields_writeDefinition _ _

lemma settled_listsIndexOf (site : Site) (face : Face) : (Lists.indexOf site face).Settled := by
  refine (yields_expr _ _ _).bind_any fun item => (yields_expr _ _ _).bind_any fun items => ?_
  dsimp only
  split
  · exact (yields_routine _ _).bind_any fun _ => settled_expr (append_ne_empty_right (by decide))
  split
  · exact (yields_routine _ _).bind_any fun _ => settled_expr (append_ne_empty_right (by decide))
  · exact yields_refuse

lemma settled_getIndex (site : Site) (face : Face) : (Lists.getIndex site face).Settled := by
  refine (yields_expr _ _ _).bind_any fun items => ?_
  -- what is done at a place once it has been found
  extract_lets finish
  have hfinish : ∀ place, (finish place).Settled := by
    intro place
    dsimp only [finish]
    split
    · exact settled_expr (append_ne_empty_right (by decide))
    split
    · exact settled_expr (append_ne_empty_right (by decide))
    split
    · exact settled_call _
    · exact yields_refuse
  split
  · split
    · exact (yields_pure trivial).bind_any hfinish
    split
    · exact (yields_pure trivial).bind_any hfinish
    split
    · exact (yields_indexAt _ _ _ _).bind_any fun _ => (yields_pure trivial).bind_any hfinish
    · exact (yields_indexAt _ _ _ _).bind_any fun _ => (yields_pure trivial).bind_any hfinish
  split
  · refine yields_importRandom.bind_any fun _ => ?_
    split
    · exact settled_expr (append_ne_empty_right (by decide))
    split
    · refine (yields_routine _ _).bind_any fun _ => ?_
      dsimp only
      split
      · exact settled_expr (append_ne_empty_right (by decide))
      · exact settled_line _
    · exact yields_refuse
  · exact yields_refuse

lemma settled_setRandom (items value : String) (insert : Bool) :
    (Lists.setRandom items value insert).Settled := by
  refine yields_importRandom.bind_any fun _ => ?_
  extract_lets finish
  have hfinish : ∀ list, (finish list).Settled := by
    intro list
    refine (yields_temporary _).bind_any fun _ => ?_
    dsimp only
    split
    · exact settled_call _
    · exact settled_line _
  split
  · exact (yields_pure trivial).bind_any hfinish
  · exact (yields_temporary _).bind_any fun _ => (yields_pure trivial).bind_any hfinish

lemma settled_setIndex (site : Site) (face : Face) : (Lists.setIndex site face).Settled := by
  refine (yields_expr _ _ _).bind_any fun items => (yields_expr _ _ _).bind_any fun value => ?_
  extract_lets finish
  have hfinish : ∀ index, (finish index).Settled := by
    intro index
    dsimp only [finish]
    split
    · exact settled_line _
    split
    · split
      · exact settled_call _
      · exact settled_call _
    · exact yields_refuse
  split
  · split
    · exact (yields_pure trivial).bind_any hfinish
    split
    · exact (yields_pure trivial).bind_any hfinish
    split
    · exact (yields_indexAt _ _ _ _).bind_any hfinish
    · exact (yields_indexAt _ _ _ _).bind_any hfinish
  split
  · exact settled_setRandom _ _ _
  · exact yields_refuse

lemma settled_sort (site : Site) (face : Face) : (Lists.sort site face).Settled := by
  refine (yields_expr _ _ _).bind_any fun items => ?_
  split
  · split
    · exact (yields_routine _ _).bind_any fun _ => settled_expr (append_ne_empty_right (by decide))
    · exact yields_refuse
  · exact yields_refuse

lemma settled_split (site : Site) (face : Face) : (Lists.split site face).Settled := by
  rw [Lists.split]
  split
  · exact (yields_expr _ _ _).bind_any fun _ => (yields_expr _ _ _).bind_any fun _ =>
      settled_expr (append_ne_empty_right (by decide))
  split
  · exact (yields_expr _ _ _).bind_any fun _ => (yields_expr _ _ _).bind_any fun _ =>
      settled_expr (append_ne_empty_right (by decide))
  · exact yields_refuse

lemma settled_of_mem_lists : ∀ entry ∈ Lists.table, ∀ site face, (entry.2 site face).Settled := by
  simp only [Lists.table, List.forall_mem_cons, List.not_mem_nil, false_implies, implies_true,
    and_true]
  refine ⟨fun _ _ => settled_expr (by decide), fun _ _ => ?_, fun _ _ => ?_, fun _ _ => ?_,
    fun _ _ => ?_, settled_listsIndexOf, settled_getIndex, settled_setIndex,
    fun _ _ => (yields_expr _ _ _).bind_any fun _ => settled_slice _ _ _ _, settled_sort,
    settled_split⟩
  · exact (yields_operands _ _ _).bind_any fun _ => settled_expr (append_ne_empty_right (by decide))
  · exact (yields_expr _ _ _).bind_any fun _ => (yields_expr _ _ _).bind_any fun _ =>
      settled_expr (append_ne_empty_left (append_ne_empty_right (by decide)))
  · exact (yields_expr _ _ _).bind_any fun _ => settled_expr (append_ne_empty_right (by decide))
  · exact (yields_expr _ _ _).bind_any fun _ => settled_expr (append_ne_empty_right (by decide))

/-! ### Logic -/

/-- Clauses with the same code in their bodies have the same code. -/
lemma alike_clause (site : Site) (keyword : String) (n : Nat) :
    Alike SameCode U (fun clause clause' => clause ≠ "" ∧ SameCode clause clause')
      (Logic.clause site keyword n) (Logic.clause site keyword n) := by
  refine .expression fun condition => .statements fun branch branch' hbranch => .done ⟨?_, ?_⟩
  · exact append_ne_empty_left (append_ne_empty_right (by decide))
  · have hhead : Text.Ended (keyword ++ " " ++ condition ++ ":\n").toList := by
      rw [String.toList_append]
      exact (ended_break ":").append_left (toList_ne_nil (break_ne_empty ":")) _
    exact (SameCode.refl hhead).append (sameCode_bodyOr site hbranch)

lemma alike_conditional (site : Site) (face : Face) :
    Alike SameCode U Outcome.Same (Logic.conditional site face) (Logic.conditional site face) := by
  refine (alike_clause site "if" 0).bind fun first first' ⟨hne, hfirst⟩ => ?_
  refine (alike_mapM fun n _ => alike_clause site "elif" n).bind fun more more' hmore => ?_
  have hclauses := hfirst.append (SameCode.join (hmore.imp fun _ _ h => h.2))
  dsimp only
  split
  · refine .statements fun branch branch' hbranch => .done (.statement ?_ ?_)
    · exact append_ne_empty_left (append_ne_empty_right (by decide))
    · have helse := hclauses.append (.refl (ended_break "else:"))
      exact helse.append (sameCode_bodyOr site hbranch)
  · exact .done (.statement (append_ne_empty_left hne) hclauses)

lemma settled_compare (site : Site) (face : Face) : (Logic.compare site face).Settled := by
  rw [Logic.compare]
  split
  · split
    · exact (yields_expr _ _ _).bind_any fun _ => (yields_expr _ _ _).bind_any fun _ =>
        settled_expr (append_ne_empty_left (append_ne_empty_right (by decide)))
    · exact yields_refuse
  · split
    · exact yields_refuse
    · exact yields_fail

lemma settled_junction (operator default : String) (rank : Rank) :
    (Logic.junction operator default rank).Settled := by
  refine (yields_expr _ _ _).bind_any fun _ => (yields_expr _ _ _).bind_any fun _ => ?_
  split
  · exact settled_expr (append_ne_empty_right (by decide))
  · exact settled_expr (append_ne_empty_left (append_ne_empty_right (by decide)))

lemma settled_operation (site : Site) (face : Face) : (Logic.operation site face).Settled := by
  rw [Logic.operation]
  split
  · exact settled_junction _ _ _
  split
  · exact settled_junction _ _ _
  · exact yields_refuse

lemma settled_boolean (site : Site) (face : Face) : (Logic.boolean site face).Settled := by
  rw [Logic.boolean]
  split
  · exact settled_expr (by decide)
  split
  · exact settled_expr (by decide)
  · exact yields_refuse

lemma alike_of_mem_logic : ∀ entry ∈ Logic.table, ∀ site face,
    Alike SameCode U Outcome.Same (entry.2 site face) (entry.2 site face) := by
  simp only [Logic.table, List.forall_mem_cons, List.not_mem_nil, false_implies, implies_true,
    and_true]
  refine ⟨alike_conditional, fun site face => (settled_compare site face).alike,
    fun site face => (settled_operation site face).alike, fun _ _ => Yields.alike ?_,
    fun site face => (settled_boolean site face).alike, fun _ _ => Yields.alike ?_,
    fun _ _ => Yields.alike ?_⟩
  · exact (yields_expr _ _ _).bind_any fun _ => settled_expr (append_ne_empty_left (by decide))
  · exact settled_expr (by decide)
  · exact (yields_expr _ _ _).bind_any fun _ => (yields_expr _ _ _).bind_any fun _ =>
      (yields_expr _ _ _).bind_any fun _ =>
        settled_expr (append_ne_empty_left (append_ne_empty_right (by decide)))

/-! ### Texts -/

lemma settled_literal (site : Site) (face : Face) : (Texts.literal site face).Settled :=
  settled_expr (append_ne_empty_right (by decide))

lemma settled_join (site : Site) (face : Face) : (Texts.join site face).Settled := by
  rw [Texts.join]
  split
  · exact settled_expr (by decide)
  · exact (yields_expr _ _ _).bind_any fun _ => settled_expr (append_ne_empty_right (by decide))
  · exact (yields_expr _ _ _).bind_any fun _ => (yields_expr _ _ _).bind_any fun _ =>
      settled_expr (append_ne_empty_right (by decide))
  · exact (yields_operands _ _ _).bind_any fun _ => (yields_temporary _).bind_any fun _ =>
      settled_expr (append_ne_empty_right (by decide))

lemma yields_nameField (face : Face) (name operation : String) :
    (Texts.nameField face name operation).Yields fun _ => True := by
  rw [Texts.nameField]
  split
  · split
    · exact yields_refuse
    · exact yields_pure trivial
  · exact yields_refuse

lemma settled_append (site : Site) (face : Face) : (Texts.append site face).Settled :=
  (yields_nameField _ _ _).bind_any fun _ => (yields_variableNamed _).bind fun _ _ =>
    (yields_expr _ _ _).bind_any fun _ => settled_call _

lemma settled_textsIndexOf (site : Site) (face : Face) : (Texts.indexOf site face).Settled := by
  rw [Texts.indexOf]
  split
  · exact yields_refuse
  · refine (yields_expr _ _ _).bind_any fun part => (yields_expr _ _ _).bind_any fun value => ?_
    extract_lets code
    split
    · exact settled_expr (append_ne_empty_right (by decide))
    · exact settled_expr (append_ne_empty_right (by decide))

lemma settled_charAt (site : Site) (face : Face) : (Texts.charAt site face).Settled := by
  refine (yields_expr _ _ _).bind_any fun _ => ?_
  split
  · exact settled_expr (append_ne_empty_right (by decide))
  split
  · exact settled_expr (append_ne_empty_right (by decide))
  split
  · exact (yields_indexAt _ _ _ _).bind_any fun _ =>
      settled_expr (append_ne_empty_right (by decide))
  split
  · exact (yields_indexAt _ _ _ _).bind_any fun _ =>
      settled_expr (append_ne_empty_right (by decide))
  split
  · exact yields_importRandom.bind_any fun _ => (yields_routine _ _).bind_any fun _ =>
      settled_expr (append_ne_empty_right (by decide))
  · exact yields_refuse

/-- The call of a method adds something to the text. -/
lemma settled_methodCall {calls : List (String × String)} (hcalls : ∀ entry ∈ calls, entry.2 ≠ "")
    (field operation : String) (site : Site) (face : Face) :
    (Texts.methodCall calls field operation site face).Settled := by
  rw [Texts.methodCall]
  split
  · split
    · rename_i hlookup
      exact (yields_expr _ _ _).bind_any fun _ =>
        settled_expr (append_ne_empty_right (hcalls _ (mem_of_lookup hlookup)))
    · exact yields_refuse
  · split
    · exact yields_refuse
    · exact yields_fail

lemma settled_output (site : Site) (face : Face) : (Texts.output site face).Settled :=
  (yields_expr _ _ _).bind_any fun _ => settled_line _

lemma settled_prompt (site : Site) (face : Face) : (Texts.prompt site face).Settled := by
  refine (yields_routine _ _).bind_any fun _ => ?_
  extract_lets finish
  have hfinish : ∀ message, (finish message).Settled := by
    intro message
    dsimp only [finish]
    split
    · exact settled_expr (append_ne_empty_right (by decide))
    · exact settled_expr (append_ne_empty_right (by decide))
    · exact settled_expr (append_ne_empty_right (by decide))
    · exact yields_refuse
  split
  · exact (yields_pure trivial).bind_any hfinish
  · exact (yields_expr _ _ _).bind_any hfinish

lemma settled_of_mem_texts : ∀ entry ∈ Texts.table, ∀ site face, (entry.2 site face).Settled := by
  simp only [Texts.table, List.forall_mem_cons, List.not_mem_nil, false_implies, implies_true,
    and_true]
  refine ⟨settled_literal, settled_join, settled_append, fun _ _ => ?_, fun _ _ => ?_,
    settled_textsIndexOf, settled_charAt, fun _ _ => ?_, settled_methodCall (by decide) _ _,
    settled_methodCall (by decide) _ _, settled_output, settled_prompt, settled_prompt⟩
  · exact (yields_expr _ _ _).bind_any fun _ => settled_expr (append_ne_empty_right (by decide))
  · exact (yields_expr _ _ _).bind_any fun _ => settled_expr (append_ne_empty_right (by decide))
  · exact (yields_expr _ _ _).bind_any fun _ => settled_slice _ _ _ _

/-! ### Variables and numbers -/

/-- The text of a finite number is not empty. -/
lemma plainText_ne_empty (negative : Bool) (m : Nat) (e : Int) :
    (Double.finite negative m e).plainText ≠ "" := by
  rw [Double.plainText_eq]
  refine append_ne_empty_right fun hempty => ?_
  have hnumeral := Double.isNumeral_magnitude negative m e
  rw [hempty] at hnumeral
  exact nomatch hnumeral

lemma settled_number (site : Site) (face : Face) : (Variables.number site face).Settled := by
  rw [Variables.number]
  split
  · rename_i x _
    refine yields_pure ?_
    rcases x with _ | ⟨_ | _⟩ | ⟨negative, m, e⟩
    · exact .value (by decide)
    · exact .value (by decide)
    · exact .value (by decide)
    · exact .value (plainText_ne_empty negative m e)
  · exact yields_fail
  · exact yields_refuse

lemma settled_arithmetic (site : Site) (face : Face) :
    (Variables.arithmetic site face).Settled := by
  have hoperators : ∀ entry ∈ Variables.operators, entry.2.text ≠ "" := by decide
  rw [Variables.arithmetic]
  split
  · split
    · rename_i hlookup
      exact (yields_expr _ _ _).bind_any fun _ => (yields_expr _ _ _).bind_any fun _ =>
        settled_expr (append_ne_empty_left
          (append_ne_empty_right (hoperators _ (mem_of_lookup hlookup))))
    · exact yields_refuse
  · split
    · exact yields_refuse
    · exact yields_fail

lemma settled_of_mem_variables :
    ∀ entry ∈ Variables.table, ∀ site face, (entry.2 site face).Settled := by
  simp only [Variables.table, List.forall_mem_cons, List.not_mem_nil, false_implies,
    implies_true, and_true]
  refine ⟨fun _ _ => ?_, fun _ _ => ?_, settled_number, settled_arithmetic⟩
  · exact (yields_nameField _ _ _).bind_any fun _ => (yields_variableNamed _).bind fun _ hid =>
      settled_expr (ne_empty_of_isIdentifier hid)
  · exact (yields_expr _ _ _).bind_any fun _ => (yields_nameField _ _ _).bind_any fun _ =>
      (yields_variableNamed _).bind fun _ _ => settled_line _

/-! ### Procedures -/

lemma yields_callCode (face : Face) : (Procedures.callCode face).Yields (· ≠ "") :=
  (yields_nameField _ _ _).bind_any fun _ => (yields_procedureNamed _).bind_any fun _ =>
    (yields_require _).bind_any fun _ => (yields_operands _ _ _).bind_any fun _ =>
      yields_pure (append_ne_empty_right (by decide))

/-! ### The standard set -/

/-- All standard handlers but those that define procedures give the same code for statements with
the same code. -/
lemma alike_of_mem_standardTable {entry : String × Handler} (h : entry ∈ standardTable)
    (hprocedure : entry.1 ∉ Procedures.definers) (site : Site) (face : Face) :
    Alike SameCode U Outcome.Same (entry.2 site face) (entry.2 site face) := by
  simp only [standardTable, List.mem_append] at h
  rcases h with (((h | h) | h) | h) | h
  · exact (settled_of_mem_lists entry h site face).alike
  · exact alike_of_mem_logic entry h site face
  · exact (settled_of_mem_texts entry h site face).alike
  · exact (settled_of_mem_variables entry h site face).alike
  · simp only [Procedures.table, List.mem_cons, List.not_mem_nil, or_false] at h
    rcases h with rfl | rfl | rfl | rfl
    · exact absurd (by decide) hprocedure
    · exact absurd (by decide) hprocedure
    · exact ((yields_callCode face).bind fun _ hne => settled_expr hne).alike
    · exact ((yields_callCode face).bind fun _ _ => settled_line _).alike

lemma alike_of_resolve {type : String} {h : Handler} (hresolve : standard.resolve type = .ok h)
    (hprocedure : type ∉ Procedures.definers) (site : Site) (face : Face) :
    Alike SameCode U Outcome.Same (h site face) (h site face) := by
  cases hlookup : standardTable.lookup type with
  | none =>
      rw [resolve_standard_of_none hlookup] at hresolve
      exact absurd hresolve nofun
  | some h' =>
      rw [resolve_standard hlookup] at hresolve
      obtain rfl := Except.ok.inj hresolve
      exact alike_of_mem_standardTable (mem_of_lookup hlookup) hprocedure site face

end Handler

end Blockscribe
