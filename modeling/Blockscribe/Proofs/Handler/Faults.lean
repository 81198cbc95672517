/-
How the plans of the standard handlers end.

* `Handler.Mishap`: the faults with which such a plan can end itself: reports of combinations of
  fields, the slip of its block, and numerals to which no offset can be applied.
* `Handler.Made`: what such a plan can make of a block: expressions that are no numerals,
  identifiers, numbers, and statements.
* `meets_of_mem_standardTable`: the plans of all standard handlers end so, for every block.
* `Plan.Shallow`, `shallow_of_mem_standardTable`: so they do not report that the recursion is too
  deep, whatever they are answered.
-/
import Blockscribe.Proofs.Handler.Slips
import Blockscribe.Proofs.Number.Foreign
import Blockscribe.Proofs.Plan.Meets

namespace Blockscribe

open Number (Foreign isNumeral)

namespace Handler

open Plan

/-- The faults with which the plan of a block can end itself, if the expressions that it is answered
have the property `A`. -/
inductive Mishap (A : String → Prop) (site : Site) (face : Face) (slip : Option Fault) :
    Fault → Prop
  | combination (operation : String) (fields : Entries) :
      Mishap A site face slip (.combination face.type operation fields)
  | slip {fault : Fault} : slip = some fault → Mishap A site face slip fault
  | index {numeral : String} {shift : Int} {negate : Bool} {fault : Fault} :
      A numeral ∨ numeral = firstIndex site → isNumeral numeral = true →
      foldedIndex numeral shift negate = .error fault → Mishap A site face slip fault

/-- What the plan of a block can make of it, if the identifiers that it is answered have the
property `B`. -/
inductive Made (B : String → Prop) (site : Site) (face : Face) : Outcome → Prop
  | value {code : String} (grade : Grade) : isNumeral code = false →
      Made B site face (.value code grade)
  | name {id : String} (grade : Grade) : B id → Made B site face (.value id grade)
  | number {x : Double} : (face.fieldOr "NUM" (.int 0)).toDouble = .ok x →
      Made B site face (Variables.numberOutcome x)
  | statement {code : String} : Foreign code → Made B site face (.statement code)
  | output (message : String) : Made B site face (.statement (site.dialect.outputStatement message))
  | nothing : Made B site face .nothing

variable {α : Type} {A B : String → Prop} {site : Site} {face : Face} {slip : Option Fault}
  {P : α → Prop}

lemma made_expr {code : String} {rank : Rank} (h : Foreign code) :
    Made B site face (.expr code rank) :=
  .value _ h.not_isNumeral

lemma meets_refuse (operation : String) (fields : Entries) :
    (refuse face.type operation fields : Plan α).Meets A B (Mishap A site face slip) P :=
  meets_fail (.combination operation fields)

lemma meets_require {e : Except Fault α} (h : ∀ fault, e = .error fault → slip = some fault) :
    (Procedures.require e).Meets A B (Mishap A site face slip) fun _ => True := by
  cases e with
  | ok a => exact meets_pure trivial
  | error fault => exact meets_fail (.slip (h fault rfl))

/-! ### Indexes -/

lemma meets_indexAt (socket : String) (offset : Int) (negate : Bool) :
    (indexAt site socket offset negate).Meets A B (Mishap A site face slip) fun _ => True := by
  refine (meets_expr _ _ _).bind fun index hindex => ?_
  split
  · rename_i hnumeral
    split
    · exact meets_pure trivial
    · rename_i fault hfault
      exact meets_fail (.index hindex hnumeral hfault)
  · exact meets_pure trivial

lemma meets_sliceStart (operation : String) :
    (sliceStart site face operation).Meets A B (Mishap A site face slip) fun _ => True := by
  rw [sliceStart]
  split
  · exact (meets_indexAt _ _ _).bind_any fun _ => meets_pure trivial
  split
  · exact meets_indexAt _ _ _
  split
  · exact meets_pure trivial
  · exact meets_refuse _ _

lemma meets_sliceEnd (operation : String) :
    (sliceEnd site face operation).Meets A B (Mishap A site face slip) fun _ => True := by
  rw [sliceEnd]
  split
  · exact meets_indexAt _ _ _
  split
  · refine (meets_indexAt _ _ _).bind_any fun stop => ?_
    split
    · exact (meets_writeDefinition _ _).bind_any fun _ => meets_pure trivial
    · exact meets_pure trivial
  split
  · exact meets_pure trivial
  · exact meets_refuse _ _

lemma meets_slice (operation sequence : String) :
    (slice site face operation sequence).Meets A B (Mishap A site face slip) (Made B site face) :=
  (meets_sliceStart _).bind_any fun _ => (meets_sliceEnd _).bind_any fun _ =>
    meets_pure (made_expr (by simp +decide))

/-! ### Lists -/

lemma meets_operands (word default : String) (count : Nat) :
    (Lists.operands word default count).Meets A B (Mishap A site face slip) fun _ => True :=
  meets_mapM fun _ _ => ⟨_, meets_expr _ _ _⟩

lemma meets_createWith :
    (Lists.createWith site face).Meets A B (Mishap A site face slip) (Made B site face) :=
  (meets_operands _ _ _).bind_any fun _ => meets_pure (made_expr (by simp +decide))

lemma meets_repetition :
    (Lists.repetition site face).Meets A B (Mishap A site face slip) (Made B site face) :=
  (meets_expr _ _ _).bind_any fun _ => (meets_expr _ _ _).bind_any fun _ =>
    meets_pure (made_expr (by simp +decide))

lemma meets_listsIndexOf :
    (Lists.indexOf site face).Meets A B (Mishap A site face slip) (Made B site face) := by
  refine (meets_expr _ _ _).bind_any fun item => (meets_expr _ _ _).bind_any fun items => ?_
  dsimp only
  split
  · exact (meets_routine _ _).bind_any fun _ => meets_pure (made_expr (by simp +decide))
  split
  · exact (meets_routine _ _).bind_any fun _ => meets_pure (made_expr (by simp +decide))
  · exact meets_refuse _ _

lemma meets_importRandom :
    Lists.importRandom.Meets A B (Mishap A site face slip) fun _ => True :=
  meets_writeDefinition _ _

lemma meets_getIndex :
    (Lists.getIndex site face).Meets A B (Mishap A site face slip) (Made B site face) := by
  refine (meets_expr _ _ _).bind_any fun items => ?_
  -- what is done at a place once it has been found
  extract_lets finish
  have hfinish : ∀ place,
      (finish place).Meets A B (Mishap A site face slip) (Made B site face) := by
    intro place
    dsimp only [finish]
    split
    · exact meets_pure (made_expr (by simp +decide))
    split
    · exact meets_pure (made_expr (by simp +decide))
    split
    · exact meets_pure (.statement (by simp +decide))
    · exact meets_refuse _ _
  split
  · split
    · exact (meets_any _).bind_any hfinish
    split
    · exact (meets_any _).bind_any hfinish
    split
    · exact (meets_indexAt _ _ _).bind_any fun _ => (meets_any _).bind_any hfinish
    · exact (meets_indexAt _ _ _).bind_any fun _ => (meets_any _).bind_any hfinish
  split
  · refine meets_importRandom.bind_any fun _ => ?_
    split
    · exact meets_pure (made_expr (by simp +decide))
    split
    · refine (meets_routine _ _).bind_any fun _ => ?_
      dsimp only
      split
      · exact meets_pure (made_expr (by simp +decide))
      · exact meets_pure (.statement (by simp +decide))
    · exact meets_refuse _ _
  · exact meets_refuse _ _

lemma meets_setRandom (items value : String) (insert : Bool) :
    (Lists.setRandom items value insert).Meets A B (Mishap A site face slip)
      (Made B site face) := by
  refine meets_importRandom.bind_any fun _ => ?_
  extract_lets finish
  have hfinish : ∀ list,
      (finish list).Meets A B (Mishap A site face slip) (Made B site face) := by
    intro list
    refine (meets_temporary _).bind_any fun _ => ?_
    dsimp only
    split
    · exact meets_pure (.statement (by simp +decide))
    · exact meets_pure (.statement (by simp +decide))
  split
  · exact (meets_any _).bind_any hfinish
  · exact (meets_temporary _).bind_any fun _ => (meets_any _).bind_any hfinish

lemma meets_setIndex :
    (Lists.setIndex site face).Meets A B (Mishap A site face slip) (Made B site face) := by
  refine (meets_expr _ _ _).bind_any fun items => (meets_expr _ _ _).bind_any fun value => ?_
  extract_lets finish
  have hfinish : ∀ index,
      (finish index).Meets A B (Mishap A site face slip) (Made B site face) := by
    intro index
    dsimp only [finish]
    split
    · exact meets_pure (.statement (by simp +decide))
    split
    · split
      · exact meets_pure (.statement (by simp +decide))
      · exact meets_pure (.statement (by simp +decide))
    · exact meets_refuse _ _
  split
  · split
    · exact (meets_any _).bind_any hfinish
    split
    · exact (meets_any _).bind_any hfinish
    split
    · exact (meets_indexAt _ _ _).bind_any hfinish
    · exact (meets_indexAt _ _ _).bind_any hfinish
  split
  · exact meets_setRandom _ _ _
  · exact meets_refuse _ _

lemma meets_sort :
    (Lists.sort site face).Meets A B (Mishap A site face slip) (Made B site face) := by
  refine (meets_expr _ _ _).bind_any fun items => ?_
  split
  · split
    · exact (meets_routine _ _).bind_any fun _ => meets_pure (made_expr (by simp +decide))
    · exact meets_refuse _ _
  · exact meets_refuse _ _

lemma meets_split :
    (Lists.split site face).Meets A B (Mishap A site face slip) (Made B site face) := by
  rw [Lists.split]
  split
  · exact (meets_expr _ _ _).bind_any fun _ => (meets_expr _ _ _).bind_any fun _ =>
      meets_pure (made_expr (by simp +decide))
  split
  · exact (meets_expr _ _ _).bind_any fun _ => (meets_expr _ _ _).bind_any fun _ =>
      meets_pure (made_expr (by simp +decide))
  · exact meets_refuse _ _

lemma meets_of_mem_lists : ∀ entry ∈ Lists.table, ∀ site face,
    (entry.2 site face).Meets A B (Mishap A site face (slip? entry.1 face)) (Made B site face) := by
  simp only [Lists.table, List.forall_mem_cons, List.not_mem_nil, false_implies, implies_true,
    and_true]
  refine ⟨fun _ _ => meets_pure (made_expr (by decide)), fun _ _ => meets_createWith,
    fun _ _ => meets_repetition, fun _ _ => ?_, fun _ _ => ?_, fun _ _ => meets_listsIndexOf,
    fun _ _ => meets_getIndex, fun _ _ => meets_setIndex, fun _ _ => ?_, fun _ _ => meets_sort,
    fun _ _ => meets_split⟩
  · exact (meets_expr _ _ _).bind_any fun _ => meets_pure (made_expr (by simp +decide))
  · exact (meets_expr _ _ _).bind_any fun _ => meets_pure (made_expr (by simp +decide))
  · exact (meets_expr _ _ _).bind_any fun _ => meets_slice _ _

/-! ### Logic -/

lemma meets_clause {keyword : String} (h : Foreign keyword) (n : Nat) :
    (Logic.clause site keyword n).Meets A B (Mishap A site face slip) Foreign :=
  (meets_expr _ _ _).bind_any fun _ => (meets_body _).bind_any fun _ =>
    meets_pure (by simp +decide [h])

lemma meets_conditional :
    (Logic.conditional site face).Meets A B (Mishap A site face slip) (Made B site face) := by
  refine (meets_clause (by decide) 0).bind fun first hfirst => ?_
  refine (meets_mapM fun n _ => ⟨_, meets_clause (by decide) n⟩).bind_any fun further => ?_
  have hcode := hfirst.append_right (String.join further)
  dsimp only
  split
  · refine (meets_body _).bind_any fun _ => meets_pure (.statement ?_)
    exact (hcode.append_right _).append_right _
  · exact meets_pure (.statement hcode)

lemma meets_compare : (Logic.compare site face).Meets A B
    (Mishap A site face (misusedKey "OP" face)) (Made B site face) := by
  have htable : ∀ entry ∈ Logic.comparisons, Foreign entry.2 := by decide
  rw [Logic.compare]
  generalize hv : face.field "OP" = v
  split
  · split
    · rename_i operator hlookup
      have hoperator : Foreign operator := htable _ (mem_of_lookup hlookup)
      exact (meets_expr _ _ _).bind_any fun _ => (meets_expr _ _ _).bind_any fun _ =>
        meets_pure (made_expr (by simp [hoperator]))
    · exact meets_refuse _ _
  · split
    · exact meets_refuse _ _
    · rename_i hkey
      exact meets_fail (.slip (by rw [misusedKey, hv, if_neg hkey]))

lemma meets_junction {operator : String} (h : Foreign operator) (default : String) (rank : Rank) :
    (Logic.junction operator default rank).Meets A B (Mishap A site face slip)
      (Made B site face) := by
  refine (meets_expr _ _ _).bind_any fun _ => (meets_expr _ _ _).bind_any fun _ => ?_
  split
  · exact meets_pure (made_expr (by simp [h]))
  · exact meets_pure (made_expr (by simp [h]))

lemma meets_operation :
    (Logic.operation site face).Meets A B (Mishap A site face slip) (Made B site face) := by
  rw [Logic.operation]
  split
  · exact meets_junction (by decide) _ _
  split
  · exact meets_junction (by decide) _ _
  · exact meets_refuse _ _

lemma meets_boolean :
    (Logic.boolean site face).Meets A B (Mishap A site face slip) (Made B site face) := by
  rw [Logic.boolean]
  split
  · exact meets_pure (made_expr (by decide))
  split
  · exact meets_pure (made_expr (by decide))
  · exact meets_refuse _ _

lemma meets_of_mem_logic : ∀ entry ∈ Logic.table, ∀ site face,
    (entry.2 site face).Meets A B (Mishap A site face (slip? entry.1 face)) (Made B site face) := by
  simp only [Logic.table, List.forall_mem_cons, List.not_mem_nil, false_implies, implies_true,
    and_true]
  refine ⟨fun _ _ => meets_conditional, fun _ _ => meets_compare, fun _ _ => meets_operation,
    fun _ _ => ?_, fun _ _ => meets_boolean, fun _ _ => meets_pure (made_expr (by decide)),
    fun _ _ => ?_⟩
  · exact (meets_expr _ _ _).bind_any fun _ => meets_pure (made_expr (by simp +decide))
  · exact (meets_expr _ _ _).bind_any fun _ => (meets_expr _ _ _).bind_any fun _ =>
      (meets_expr _ _ _).bind_any fun _ => meets_pure (made_expr (by simp +decide))

/-! ### Texts -/

lemma foreign_quote (text : String) : Foreign (quote text) := by
  rw [quote]
  simp +decide

lemma meets_join :
    (Texts.join site face).Meets A B (Mishap A site face slip) (Made B site face) := by
  rw [Texts.join]
  split
  · exact meets_pure (made_expr (by decide))
  · exact (meets_expr _ _ _).bind_any fun _ => meets_pure (made_expr (by simp +decide))
  · exact (meets_expr _ _ _).bind_any fun _ => (meets_expr _ _ _).bind_any fun _ =>
      meets_pure (made_expr (by simp +decide))
  · exact (meets_operands _ _ _).bind_any fun _ => (meets_temporary _).bind_any fun _ =>
      meets_pure (made_expr (by simp +decide))

/-- A name that is found in a field is not empty. -/
lemma meets_nameField (name operation : String) :
    (Texts.nameField face name operation).Meets A B (Mishap A site face slip)
      fun key => face.field name = .text key ∧ key ≠ "" := by
  rw [Texts.nameField]
  split
  · rename_i key hkey
    split
    · exact meets_refuse _ _
    · rename_i hne
      exact meets_pure ⟨hkey, hne⟩
  · exact meets_refuse _ _

lemma meets_append :
    (Texts.append site face).Meets A B (Mishap A site face slip) (Made B site face) :=
  (meets_nameField _ _).bind_any fun _ => (meets_variableNamed _).bind_any fun _ =>
    (meets_expr _ _ _).bind_any fun _ => meets_pure (.statement (by simp +decide))

lemma meets_textsIndexOf :
    (Texts.indexOf site face).Meets A B (Mishap A site face slip) (Made B site face) := by
  rw [Texts.indexOf]
  split
  · exact meets_refuse _ _
  · refine (meets_expr _ _ _).bind_any fun part => (meets_expr _ _ _).bind_any fun value => ?_
    extract_lets code
    have hcode : Foreign code := by simp +decide [code]
    split
    · exact meets_pure (made_expr (hcode.append_right _))
    · exact meets_pure (made_expr hcode)

lemma meets_charAt :
    (Texts.charAt site face).Meets A B (Mishap A site face slip) (Made B site face) := by
  refine (meets_expr _ _ _).bind_any fun _ => ?_
  split
  · exact meets_pure (made_expr (by simp +decide))
  split
  · exact meets_pure (made_expr (by simp +decide))
  split
  · exact (meets_indexAt _ _ _).bind_any fun _ => meets_pure (made_expr (by simp +decide))
  split
  · exact (meets_indexAt _ _ _).bind_any fun _ => meets_pure (made_expr (by simp +decide))
  split
  · exact meets_importRandom.bind_any fun _ => (meets_routine _ _).bind_any fun _ =>
      meets_pure (made_expr (by simp +decide))
  · exact meets_refuse _ _

lemma meets_methodCall {calls : List (String × String)} (hcalls : ∀ entry ∈ calls, Foreign entry.2)
    (field operation : String) : (Texts.methodCall calls field operation site face).Meets A B
      (Mishap A site face (misusedKey field face)) (Made B site face) := by
  rw [Texts.methodCall]
  generalize hv : face.field field = v
  split
  · split
    · rename_i call hlookup
      have hcall : Foreign call := hcalls _ (mem_of_lookup hlookup)
      exact (meets_expr _ _ _).bind_any fun _ => meets_pure (made_expr (hcall.append_left _))
    · exact meets_refuse _ _
  · split
    · exact meets_refuse _ _
    · rename_i hkey
      exact meets_fail (.slip (by rw [misusedKey, hv, if_neg hkey]))

lemma meets_prompt :
    (Texts.prompt site face).Meets A B (Mishap A site face slip) (Made B site face) := by
  refine (meets_routine _ _).bind_any fun _ => ?_
  extract_lets finish
  have hfinish : ∀ message,
      (finish message).Meets A B (Mishap A site face slip) (Made B site face) := by
    intro message
    dsimp only [finish]
    split
    · exact meets_pure (made_expr (by simp +decide))
    · exact meets_pure (made_expr (by simp +decide))
    · exact meets_pure (made_expr (by simp +decide))
    · exact meets_refuse _ _
  split
  · exact (meets_any _).bind_any hfinish
  · exact (meets_expr _ _ _).bind_any hfinish

lemma meets_of_mem_texts : ∀ entry ∈ Texts.table, ∀ site face,
    (entry.2 site face).Meets A B (Mishap A site face (slip? entry.1 face)) (Made B site face) := by
  simp only [Texts.table, List.forall_mem_cons, List.not_mem_nil, false_implies, implies_true,
    and_true]
  refine ⟨fun _ _ => meets_pure (made_expr (foreign_quote _)), fun _ _ => meets_join,
    fun _ _ => meets_append, fun _ _ => ?_, fun _ _ => ?_, fun _ _ => meets_textsIndexOf,
    fun _ _ => meets_charAt, fun _ _ => ?_, fun _ _ => meets_methodCall (by decide) _ _,
    fun _ _ => meets_methodCall (by decide) _ _, fun _ _ => ?_, fun _ _ => meets_prompt,
    fun _ _ => meets_prompt⟩
  · exact (meets_expr _ _ _).bind_any fun _ => meets_pure (made_expr (by simp +decide))
  · exact (meets_expr _ _ _).bind_any fun _ => meets_pure (made_expr (by simp +decide))
  · exact (meets_expr _ _ _).bind_any fun _ => meets_slice _ _
  · exact (meets_expr _ _ _).bind_any fun _ => meets_pure (.output _)

/-! ### Variables and numbers -/

lemma meets_number : (Variables.number site face).Meets A B
    (Mishap A site face (largeNumber face)) (Made B site face) := by
  rw [Variables.number]
  split
  · rename_i x hx
    exact meets_pure (.number hx)
  · rename_i hlarge
    exact meets_fail (.slip (by rw [largeNumber, hlarge]))
  · exact meets_refuse _ _

/-- A difference is not read as a numeral; all other operators have characters of their own. -/
lemma meets_arithmetic : (Variables.arithmetic site face).Meets A B
    (Mishap A site face (misusedKey "OP" face)) (Made B site face) := by
  have htable : ∀ entry ∈ Variables.operators, Foreign entry.2.text ∨ entry.2.text = " - " := by
    decide
  rw [Variables.arithmetic]
  generalize hv : face.field "OP" = v
  split
  · split
    · rename_i operator hlookup
      refine (meets_expr _ _ _).bind_any fun left => (meets_expr _ _ _).bind_any fun right => ?_
      rcases htable _ (mem_of_lookup hlookup) with hoperator | hminus
      · exact meets_pure (made_expr ((hoperator.append_left left).append_right right))
      · refine meets_pure (.value _ ?_)
        rw [hminus]
        exact Number.not_isNumeral_difference left right
    · exact meets_refuse _ _
  · split
    · exact meets_refuse _ _
    · rename_i hkey
      exact meets_fail (.slip (by rw [misusedKey, hv, if_neg hkey]))

lemma meets_of_mem_variables : ∀ entry ∈ Variables.table, ∀ site face,
    (entry.2 site face).Meets A B (Mishap A site face (slip? entry.1 face)) (Made B site face) := by
  simp only [Variables.table, List.forall_mem_cons, List.not_mem_nil, false_implies,
    implies_true, and_true]
  refine ⟨fun _ _ => ?_, fun _ _ => ?_, fun _ _ => meets_number, fun _ _ => meets_arithmetic⟩
  · exact (meets_nameField _ _).bind_any fun _ => (meets_variableNamed _).bind fun _ hid =>
      meets_pure (.name _ hid)
  · exact (meets_expr _ _ _).bind_any fun _ => (meets_nameField _ _).bind_any fun _ =>
      (meets_variableNamed _).bind_any fun _ => meets_pure (.statement (by simp +decide))

/-! ### Procedures -/

lemma meets_definition : (Procedures.definition site face).Meets A B
    (Mishap A site face (unnamedParameters face)) (Made B site face) := by
  have hvariables : ∀ names : List String, (names.mapM variableNamed).Meets A B
      (Mishap A site face (unnamedParameters face)) fun _ => True := fun names =>
    meets_mapM fun _ _ => ⟨_, meets_variableNamed _⟩
  have hnames : ∀ fault, (Procedures.parameters face).bind Procedures.asNames = .error fault →
      unnamedParameters face = some fault := by
    intro fault h
    rw [unnamedParameters, h]
    rfl
  refine (meets_require hnames).bind_any fun names => (hvariables _).bind_any fun shared => ?_
  refine (meets_nameField _ _).bind_any fun _ => (meets_procedureNamed _).bind_any fun _ => ?_
  refine (meets_body _).bind_any fun _ => (meets_expr _ _ _).bind_any fun _ => ?_
  refine (hvariables names).bind_any fun arguments => ?_
  exact (meets_withSurroundings _).bind_any fun _ =>
    (meets_writeDefinition _ _).bind_any fun _ => meets_pure .nothing

lemma meets_callCode : (Procedures.callCode face).Meets A B
    (Mishap A site face (unlistedParameters face)) Foreign := by
  refine (meets_nameField _ _).bind fun name hname => (meets_procedureNamed _).bind_any fun _ => ?_
  have hparameters : ∀ fault, Procedures.parameters face = .error fault →
      unlistedParameters face = some fault := by
    intro fault h
    simp only [unlistedParameters, hname.1, if_neg hname.2, h]
    rfl
  refine (meets_require hparameters).bind_any fun _ => (meets_operands _ _ _).bind_any fun _ => ?_
  exact meets_pure (by simp +decide)

lemma meets_of_mem_procedures : ∀ entry ∈ Procedures.table, ∀ site face,
    (entry.2 site face).Meets A B (Mishap A site face (slip? entry.1 face)) (Made B site face) := by
  simp only [Procedures.table, List.forall_mem_cons, List.not_mem_nil, false_implies,
    implies_true, and_true]
  refine ⟨fun _ _ => meets_definition, fun _ _ => meets_definition, fun _ _ => ?_, fun _ _ => ?_⟩
  · exact meets_callCode.bind fun _ hcode => meets_pure (made_expr hcode)
  · exact meets_callCode.bind fun _ hcode => meets_pure (.statement (hcode.append_right _))

/-! ### The standard set -/

/-- The plans of all standard handlers end in these ways, whatever the block and its site are. -/
lemma meets_of_mem_standardTable {entry : String × Handler} (h : entry ∈ standardTable)
    (site : Site) (face : Face) : (entry.2 site face).Meets A B
      (Mishap A site face (slip? entry.1 face)) (Made B site face) := by
  simp only [standardTable, List.mem_append] at h
  rcases h with (((h | h) | h) | h) | h
  · exact meets_of_mem_lists entry h site face
  · exact meets_of_mem_logic entry h site face
  · exact meets_of_mem_texts entry h site face
  · exact meets_of_mem_variables entry h site face
  · exact meets_of_mem_procedures entry h site face

end Handler

/-! ### The depth of the recursion -/

/-- A plan that does not itself report that the recursion is too deep. -/
abbrev Plan.Shallow {α : Type} (p : Plan α) : Prop := p.Only (· ≠ .tooDeep)

/-- A report about blocks is no such fault. -/
lemma Fault.IsRefusal.ne_tooDeep {fault : Fault} (h : fault.IsRefusal) : fault ≠ .tooDeep := by
  rintro rfl
  exact h

lemma Fault.Only.shallow {α : Type} {e : Except Fault α} (h : Fault.Only Fault.IsRefusal e) :
    Fault.Only (· ≠ .tooDeep) e :=
  h.mono fun _ hfault => hfault.ne_tooDeep

namespace Handler

/-- A numeral that cannot be folded is no number or is too large. -/
lemma only_foldedIndex (numeral : String) (shift : Int) (negate : Bool) :
    Fault.Only (· ≠ .tooDeep) (foldedIndex numeral shift negate) := by
  rw [foldedIndex]
  split
  · exact Fault.only_error_iff.mpr (by simp)
  · split
    · exact Fault.only_error_iff.mpr (by simp)
    · exact Fault.only_ok _

/-- No standard handler reports that the recursion is too deep. -/
lemma shallow_of_mem_standardTable {entry : String × Handler} (h : entry ∈ standardTable)
    (site : Site) (face : Face) : (entry.2 site face).Shallow := by
  refine Plan.Meets.only ((meets_of_mem_standardTable h site face).mono (fun fault hfault => ?_)
    fun _ h => h)
  cases hfault with
  | combination operation fields =>
      have hrefusal : (Fault.combination face.type operation fields).IsRefusal := trivial
      exact hrefusal.ne_tooDeep
  | slip hslip =>
      rintro rfl
      exact isSlip_of_slip? hslip
  | index _ _ hfolded => exact only_foldedIndex _ _ _ fault hfolded

end Handler

end Blockscribe
