/-
The standard handlers put texts together in one way only.

* `akin_of_mem_logic`, `akin_of_mem_variables`: given akin answers, the handlers of logic, variables
  and numbers give akin outcomes.
* `akin_of_resolve`: so do all standard handlers but those that define procedures.
* `akin_definition`: and so do these, if the texts of procedures are akin.
-/
import Blockscribe.Proofs.Handler.Akin.Sequences

namespace Blockscribe.Handler

open Plan

variable {k : Kin} {site : Site} {indent' : String}

section Lawful

variable (hk : k.Lawful site.indent indent') (face : Face)

include hk

/-! ### Variables and numbers -/

lemma akin_number :
    Akin k (Outcome.Akin k) (Variables.number site face)
      (Variables.number (Site.other site indent') face) := by
  rw [Variables.number, Variables.number]
  split
  · rename_i x _
    rcases x with _ | ⟨_ | _⟩ | ⟨negative, m, e⟩
    · exact akin_const hk (by decide) (by decide)
    · exact akin_const hk (by decide) (by decide)
    · exact akin_const hk (by decide) (by decide)
    · exact akin_const hk (flat_plainText negative m e).1 (flat_plainText negative m e).2
  · exact .fail
  · exact akin_refuse

lemma akin_arithmetic :
    Akin k (Outcome.Akin k) (Variables.arithmetic site face)
      (Variables.arithmetic (Site.other site indent') face) := by
  rw [Variables.arithmetic, Variables.arithmetic]
  cases face.field "OP" with
  | text op =>
      dsimp only
      cases hlookup : Variables.operators.lookup op with
      | none => exact akin_refuse
      | some operator =>
          have hflat : '\n' ∉ operator.text.toList :=
            (by decide : ∀ entry ∈ Variables.operators, '\n' ∉ entry.2.text.toList) _
              (mem_of_lookup hlookup)
          have hfirm : IsFirm operator.text.toList :=
            (by decide : ∀ entry ∈ Variables.operators, IsFirm entry.2.text.toList) _
              (mem_of_lookup hlookup)
          refine (akin_expr (hk.part_const (by decide))).bind fun left left' hleft => ?_
          refine (akin_expr (hk.part_const (by decide))).bind fun right right' hright => ?_
          exact akin_pure (.value (hk.expr_append_left (hk.expr_add hleft _ hflat hfirm) hright))
  | null | bool | int | real | list | record =>
      dsimp only
      split
      · exact akin_refuse
      · exact .fail

lemma akin_of_mem_variables : ∀ entry ∈ Variables.table, ∀ face,
    Akin k (Outcome.Akin k) (entry.2 site face) (entry.2 (Site.other site indent') face) := by
  simp only [Variables.table, List.forall_mem_cons, List.not_mem_nil, false_implies,
    implies_true, and_true]
  refine ⟨fun _ => ?_, fun _ => ?_, akin_number hk, akin_arithmetic hk⟩
  · refine (akin_nameField _ _ _).bind fun name _ h => ?_
    obtain ⟨rfl, -⟩ := h
    refine (akin_variableNamed _).bind fun id _ h => ?_
    obtain ⟨rfl, hid⟩ := h
    exact akin_pure (.value (hk.expr_name hid))
  · refine (akin_expr (hk.part_const (by decide))).bind fun value value' hvalue => ?_
    refine (akin_nameField _ _ _).bind fun name _ h => ?_
    obtain ⟨rfl, -⟩ := h
    refine (akin_variableNamed _).bind fun id _ h => ?_
    obtain ⟨rfl, hid⟩ := h
    exact akin_line hk (hk.expr_append_left (hk.expr_append_left (hk.expr_name hid)
      (hk.part_const (by decide))) hvalue)

/-! ### Procedures -/

omit hk in
/-- What is read off the block is the same. -/
lemma akin_require {α : Type} (e : Except Fault α) :
    Akin k (fun a a' => a = a' ∧ e = .ok a) (Procedures.require e) (Procedures.require e) := by
  cases e with
  | ok a => exact akin_pure ⟨rfl, rfl⟩
  | error fault => exact .fail

lemma akin_callCode :
    Akin k k.expr (Procedures.callCode face) (Procedures.callCode face) := by
  refine (akin_nameField _ _ _).bind fun name _ h => ?_
  obtain ⟨rfl, -⟩ := h
  refine (akin_procedureNamed _).bind fun id _ h => ?_
  obtain ⟨rfl, hid⟩ := h
  refine (akin_require _).bind fun parameters _ h => ?_
  obtain ⟨rfl, -⟩ := h
  refine (akin_operands hk _ (by decide) _).bind fun arguments arguments' harguments => ?_
  have hall := hk.part_intercalate ", " (by decide) harguments
  exact akin_pure (hk.expr_append_left (hk.expr_append_left (hk.expr_append_left (hk.expr_name hid)
    (hk.part_const (by decide))) hall) (hk.part_const (by decide)))

/-! ### Logic -/

lemma akin_compare :
    Akin k (Outcome.Akin k) (Logic.compare site face)
      (Logic.compare (Site.other site indent') face) := by
  rw [Logic.compare, Logic.compare]
  cases face.field "OP" with
  | text op =>
      dsimp only
      cases hlookup : Logic.comparisons.lookup op with
      | none => exact akin_refuse
      | some operator =>
          have hflat : '\n' ∉ operator.toList :=
            (by decide : ∀ entry ∈ Logic.comparisons, '\n' ∉ entry.2.toList) _
              (mem_of_lookup hlookup)
          have hfirm : IsFirm operator.toList :=
            (by decide : ∀ entry ∈ Logic.comparisons, IsFirm entry.2.toList) _
              (mem_of_lookup hlookup)
          refine (akin_expr (hk.part_const (by decide))).bind fun left left' hleft => ?_
          refine (akin_expr (hk.part_const (by decide))).bind fun right right' hright => ?_
          have hspace := hk.part_const (c := " ") (by decide)
          have hopen := hk.expr_add (hk.part_append hleft hspace) operator hflat hfirm
          exact akin_pure (.value (hk.expr_append_left (hk.expr_append_left hopen hspace) hright))
  | null | bool | int | real | list | record =>
      dsimp only
      split
      · exact akin_refuse
      · exact .fail

lemma akin_junction (operator default : String) (rank : Rank)
    (hoperator : '\n' ∉ operator.toList ∧ IsFirm operator.toList)
    (hdefault : '\n' ∉ default.toList) :
    Akin k (Outcome.Akin k) (Logic.junction operator default rank)
      (Logic.junction operator default rank) := by
  refine (akin_expr (hk.part_const (by decide))).bind fun left left' hleft => ?_
  refine (akin_expr (hk.part_const (by decide))).bind fun right right' hright => ?_
  have hempty : ∀ {code code' : String}, k.part code code' → (code = "" ↔ code' = "") := by
    intro code code' h
    rcases hk.eq_or_compound h with rfl | ⟨⟨hne, -⟩, hne', -⟩
    · exact Iff.rfl
    · exact iff_of_false hne hne'
  have hfilled : ∀ {code code' : String}, k.part code code' →
      k.part (if code = "" then default else code) (if code' = "" then default else code') := by
    intro code code' h
    by_cases he : code = ""
    · rw [if_pos he, if_pos ((hempty h).mp he)]
      exact hk.part_const hdefault
    · rw [if_neg he, if_neg fun he' => he ((hempty h).mpr he')]
      exact h
  have hspace := hk.part_const (c := " ") (by decide)
  have hboth := and_congr (hempty hleft) (hempty hright)
  by_cases hnone : left = "" ∧ right = ""
  · rw [if_pos hnone, if_pos (hboth.mp hnone)]
    have hopen := hk.expr_add (hk.part_const (c := "False ") (by decide)) operator hoperator.1
      hoperator.2
    exact akin_pure (.value (hk.expr_append_left hopen (hk.part_const (by decide))))
  · rw [if_neg hnone, if_neg fun hnone' => hnone (hboth.mpr hnone')]
    have hopen := hk.expr_add (hk.part_append (hfilled hleft) hspace) operator hoperator.1
      hoperator.2
    exact akin_pure (.value
      (hk.expr_append_left (hk.expr_append_left hopen hspace) (hfilled hright)))

lemma akin_boolean :
    Akin k (Outcome.Akin k) (Logic.boolean site face)
      (Logic.boolean (Site.other site indent') face) := by
  rw [Logic.boolean, Logic.boolean]
  split
  · exact akin_const hk (by decide) (by decide)
  split
  · exact akin_const hk (by decide) (by decide)
  · exact akin_refuse

section Dialects

variable (hdialect : site.dialect ∈ Dialect.all)

include hdialect

lemma body_bodyOr {branch branch' : String} (h : k.body branch branch') :
    k.body (site.bodyOr branch) ((Site.other site indent').bodyOr branch') := by
  have hflat : '\n' ∉ site.dialect.passKeyword.toList :=
    (by decide : ∀ d ∈ Dialect.all, '\n' ∉ d.passKeyword.toList) _ hdialect
  have hfirm : IsFirm site.dialect.passKeyword.toList :=
    (by decide : ∀ d ∈ Dialect.all, IsFirm d.passKeyword.toList) _ hdialect
  rw [Site.bodyOr, Site.bodyOr]
  by_cases hempty : branch = ""
  · rw [if_pos hempty, if_pos ((hk.body_empty h).mp hempty)]
    exact hk.body_line (hk.expr_const hflat hfirm)
  · rw [if_neg hempty, if_neg fun he => hempty ((hk.body_empty h).mpr he)]
    exact h

lemma akin_clause (keyword : String) (hkeyword : '\n' ∉ keyword.toList ∧ IsFirm keyword.toList)
    (n : Nat) :
    Akin k k.lines (Logic.clause site keyword n) (Logic.clause (Site.other site indent') keyword n) := by
  refine (akin_expr (hk.part_const (by decide))).bind fun condition condition' hcondition => ?_
  refine (akin_body _).bind fun branch branch' hbranch => akin_pure ?_
  refine hk.lines_head ?_ (body_bodyOr hk hdialect hbranch)
  exact hk.expr_append_left (hk.expr_append_left (hk.expr_const hkeyword.1 hkeyword.2)
    (hk.part_const (by decide))) hcondition

lemma akin_conditional :
    Akin k (Outcome.Akin k) (Logic.conditional site face)
      (Logic.conditional (Site.other site indent') face) := by
  refine (akin_clause hk hdialect "if" (by decide) 0).bind fun first first' hfirst => ?_
  refine (akin_mapM fun n _ => akin_clause hk hdialect "elif" (by decide) n).bind
    fun further further' hfurther => ?_
  have hclauses := hk.lines_append hfirst (hk.lines_join hfurther)
  dsimp only
  split
  · refine (akin_body _).bind fun branch branch' hbranch => akin_pure (.statement ?_)
    have helse : k.lines ("else:\n" ++ site.bodyOr branch)
        ("else:\n" ++ (Site.other site indent').bodyOr branch') :=
      hk.lines_head (hk.expr_const (c := "else") (by decide) (by decide))
        (body_bodyOr hk hdialect hbranch)
    have hall := hk.lines_append hclauses helse
    rw [← String.append_assoc, ← String.append_assoc] at hall
    exact hall
  · exact akin_pure (.statement hclauses)

lemma akin_of_mem_logic : ∀ entry ∈ Logic.table, ∀ face,
    Akin k (Outcome.Akin k) (entry.2 site face) (entry.2 (Site.other site indent') face) := by
  simp only [Logic.table, List.forall_mem_cons, List.not_mem_nil, false_implies, implies_true,
    and_true]
  refine ⟨fun _ => akin_conditional hk _ hdialect, akin_compare hk, fun face => ?_, fun _ => ?_,
    akin_boolean hk, fun _ => akin_const hk (by decide) (by decide), fun _ => ?_⟩
  · rw [Logic.operation, Logic.operation]
    split
    · exact akin_junction hk _ _ _ (by decide) (by decide)
    split
    · exact akin_junction hk _ _ _ (by decide) (by decide)
    · exact akin_refuse
  · refine (akin_expr (hk.part_const (by decide))).bind fun operand operand' hoperand => ?_
    exact akin_pure (.value
      (hk.expr_append_left (hk.expr_const (by decide) (by decide)) hoperand))
  · refine (akin_expr (hk.part_const (by decide))).bind fun condition condition' hcondition => ?_
    refine (akin_expr (hk.part_const (by decide))).bind fun first first' hfirst => ?_
    refine (akin_expr (hk.part_const (by decide))).bind fun second second' hsecond => ?_
    have hopen := hk.expr_add hfirst " if " (by decide) (by decide)
    exact akin_pure (.value (hk.expr_append_left (hk.expr_append_left
      (hk.expr_append_left hopen hcondition) (hk.part_const (by decide))) hsecond))

/-! ### Definitions of procedures -/

/-- The statements of a procedure: the program's variables are bound, and something is returned if
there is a result. -/
lemma body_tail {branch branch' result result' : String} (hbranch : k.body branch branch')
    (hresult : k.part result result') :
    k.body (Procedures.tail site branch result)
      (Procedures.tail (Site.other site indent') branch' result') := by
  have hreturn : k.body (branch ++ site.indent ++ "return " ++ result ++ "\n")
      (branch' ++ indent' ++ "return " ++ result' ++ "\n") := by
    have hline := hk.body_line (hk.expr_append_left
      (hk.expr_const (c := "return ") (by decide) (by decide)) hresult)
    have hall := hk.body_append hbranch hline
    simp only [String.append_assoc] at hall ⊢
    exact hall
  rw [Procedures.tail, Procedures.tail]
  rcases hk.eq_or_compound hresult with rfl | ⟨⟨hne, -⟩, hne', -⟩
  · split
    · exact hreturn
    · exact body_bodyOr hk hdialect hbranch
  · rw [if_pos hne, if_pos hne']
    exact hreturn

omit hdialect in
lemma body_bindingLine {identifiers : List String} (h : ∀ id ∈ identifiers, k.name id) :
    k.body (Procedures.bindingLine site identifiers)
      (Procedures.bindingLine (Site.other site indent') identifiers) := by
  rw [Procedures.bindingLine, Procedures.bindingLine]
  split
  · exact hk.body_none
  · have hnames := hk.part_intercalate ", " (by decide)
      (List.forall₂_same.mpr fun id hid => hk.part_name (h id hid))
    have hline := hk.body_line (hk.expr_append_left
      (hk.expr_const (c := "global ") (by decide) (by decide)) hnames)
    simp only [String.append_assoc] at hline ⊢
    exact hline

omit hk hdialect in
/-- The identifiers of several names are the same. -/
lemma akin_mapM_variableNamed (names : List String) :
    Akin k (fun ids ids' => ids = ids' ∧ ∀ id ∈ ids, k.name id) (names.mapM variableNamed)
      (names.mapM variableNamed) := by
  induction names with
  | nil => exact akin_pure ⟨rfl, nofun⟩
  | cons name rest ih =>
      rw [List.mapM_cons]
      refine (akin_variableNamed name).bind fun id _ h => ?_
      obtain ⟨rfl, hid⟩ := h
      refine ih.bind fun ids _ h => ?_
      obtain ⟨rfl, hids⟩ := h
      exact akin_pure ⟨rfl, List.forall_mem_cons.mpr ⟨hid, hids⟩⟩

/-- The handler of procedures gives no code, if the texts that it writes are akin. -/
lemma akin_definition
    (hwritten : ∀ id full full', k.name id → k.framed full full' →
      k.definition ("%" ++ id) full full') :
    Akin k (fun outcome outcome' => outcome = .nothing ∧ outcome' = .nothing)
      (Procedures.definition site face) (Procedures.definition (Site.other site indent') face) := by
  refine (akin_require _).bind fun names _ h => ?_
  obtain ⟨rfl, -⟩ := h
  refine (akin_mapM_variableNamed _).bind fun shared _ h => ?_
  obtain ⟨rfl, hshared⟩ := h
  refine (akin_nameField _ _ _).bind fun name _ h => ?_
  obtain ⟨rfl, -⟩ := h
  refine (akin_procedureNamed _).bind fun id _ h => ?_
  obtain ⟨rfl, hid⟩ := h
  refine (akin_body _).bind fun branch branch' hbranch => ?_
  refine (akin_expr (hk.part_const (by decide))).bind fun result result' hresult => ?_
  refine (akin_mapM_variableNamed _).bind fun arguments _ h => ?_
  obtain ⟨rfl, harguments⟩ := h
  have hlist := hk.part_intercalate ", " (by decide)
    (List.forall₂_same.mpr fun id hid => hk.part_name (harguments id hid))
  have hhead : k.expr ("def " ++ id ++ "(" ++ ", ".intercalate arguments ++ ")")
      ("def " ++ id ++ "(" ++ ", ".intercalate arguments ++ ")") := by
    have hname := hk.part_name hid
    apply_rules [hk.expr_append_left, hk.expr_const, hk.part_const] <;> decide
  have hcode := hk.lines_head hhead
    (hk.body_append (body_bindingLine hk hshared) (body_tail hk hdialect hbranch hresult))
  have hgroup : ∀ a b c : String, a ++ ")" ++ ":\n" ++ (b ++ c) = a ++ "):\n" ++ b ++ c :=
    fun a b c => by rw [← String.append_assoc, show a ++ ")" ++ ":\n" = a ++ "):\n" from
      String.append_assoc]
  rw [hgroup, hgroup] at hcode
  refine .surround hcode fun full full' hfull => ?_
  exact (akin_writeDefinition (hwritten _ _ _ hid hfull)).bind fun _ _ _ =>
    akin_pure ⟨rfl, rfl⟩

section Imports

variable (himports : ∀ e ∈ moduleLines, k.definition e.1 e.2 e.2)

include himports

/-! ### The standard set -/

/-- Given akin answers, all standard handlers but those that define procedures give akin outcomes.
-/
lemma akin_of_mem_standardTable {entry : String × Handler} (h : entry ∈ standardTable)
    (hprocedure : entry.1 ∉ Procedures.definers) :
    Akin k (Outcome.Akin k) (entry.2 site face) (entry.2 (Site.other site indent') face) := by
  simp only [standardTable, List.mem_append] at h
  rcases h with (((h | h) | h) | h) | h
  · exact akin_of_mem_lists hk himports entry h face
  · exact akin_of_mem_logic hk hdialect entry h face
  · exact akin_of_mem_texts hk hdialect himports entry h face
  · exact akin_of_mem_variables hk entry h face
  · simp only [Procedures.table, List.mem_cons, List.not_mem_nil, or_false] at h
    rcases h with rfl | rfl | rfl | rfl
    · exact absurd (by decide) hprocedure
    · exact absurd (by decide) hprocedure
    · exact (akin_callCode hk face).bind fun _ _ hcode => akin_pure (.value hcode)
    · exact (akin_callCode hk face).bind fun _ _ hcode => akin_line hk hcode

lemma akin_of_resolve {type : String} {h : Handler} (hresolve : standard.resolve type = .ok h)
    (hprocedure : type ∉ Procedures.definers) :
    Akin k (Outcome.Akin k) (h site face) (h (Site.other site indent') face) :=
  akin_of_mem_standardTable hk face hdialect himports (mem_of_lookup (lookup_of_resolve hresolve))
    hprocedure

end Imports

end Dialects

end Lawful

end Blockscribe.Handler
