/-
What the standard handlers do not guard against.

* `Handler.slip?`: the fault other than a report with which the handler of a block type stops at
  once, if there is something in the face of the block that it cannot use.
* `Fault.IsSlip`, `isSlip_of_slip?`: these are values of a wrong kind, members that a value does not
  have, and numbers that are too large.
* `Plan.Fails`: a plan that ends with a fault before it asks for any code.
* `fails_of_slip?`: so does the plan of a block with a slip.
-/
import Blockscribe.Handler.Standard
import Blockscribe.Proofs.Plan.Faults

namespace Blockscribe

/-- A value of a wrong kind, a member that a value does not have, or a number that is too large. -/
def Fault.IsSlip : Fault → Prop
  | wrongKind .. | noMember .. | tooLarge => True
  | _ => False

namespace Plan

variable {α β : Type} {fault : Fault}

/-- The plan ends with the fault before it asks for any code; it may have asked for identifiers. -/
def Fails (fault : Fault) : Plan α → Prop
  | fail f => f = fault
  | identifier _ _ next => ∀ id, (next id).Fails fault
  | _ => False

lemma Fails.bind {p : Plan α} (hp : p.Fails fault) (f : α → Plan β) : (p >>= f).Fails fault := by
  induction p with
  | fail e => exact hp
  | identifier name kind next ih => exact fun id => ih id (hp id)
  | done | expression | statements | fresh | helper | define | surround => exact hp.elim

/-- So it is when it is carried out, whatever the state is. -/
lemma Fails.exists_run {p : Plan α} (hp : p.Fails fault) (indent : String) (services : Services)
    (s : Run) : ∃ t, (p.run indent services).run s = .error fault t := by
  induction p generalizing s with
  | fail e => exact ⟨s, congrArg (EStateM.Result.error · s) hp⟩
  | identifier name kind next ih => exact ih _ (hp _) (s.named name kind).2
  | done | expression | statements | fresh | helper | define | surround => exact hp.elim

end Plan

namespace Handler

open Plan

variable {α β : Type} {type : String} {fault : Fault} {site : Site} {face : Face}

/-! ### Slips -/

/-- The fault of a computation that may fail. -/
def faultOf? : Except Fault α → Option Fault
  | .error fault => some fault
  | .ok _ => none

/-- A list or a record in a field that is looked up in a table. -/
def misusedKey (field : String) (face : Face) : Option Fault :=
  if (face.field field).isKey then none else some (.misuse (face.field field) .key)

/-- An integer beyond the doubles. -/
def largeNumber (face : Face) : Option Fault :=
  match (face.fieldOr "NUM" (.int 0)).toDouble with
  | .error .tooLarge => some .tooLarge
  | _ => none

/-- Parameters that are not listed, or not by their names. -/
def unnamedParameters (face : Face) : Option Fault :=
  faultOf? ((Procedures.parameters face).bind Procedures.asNames)

/-- Parameters that are not listed, of a procedure that has a name. -/
def unlistedParameters (face : Face) : Option Fault :=
  match face.field "NAME" with
  | .text name => if name = "" then none else faultOf? (Procedures.parameters face)
  | _ => none

/-- What the handlers do not guard against, by block type. -/
def slips : List (String × (Face → Option Fault)) :=
  [("math_number", largeNumber), ("math_arithmetic", misusedKey "OP"),
    ("logic_compare", misusedKey "OP"), ("text_changeCase", misusedKey "CASE"),
    ("text_trim", misusedKey "MODE"), ("procedures_defreturn", unnamedParameters),
    ("procedures_defnoreturn", unnamedParameters), ("procedures_callreturn", unlistedParameters),
    ("procedures_callnoreturn", unlistedParameters)]

/-- The fault with which the handler of a block type stops at once, other than by a report. -/
def slip? (type : String) (face : Face) : Option Fault :=
  (slips.lookup type).bind fun slip => slip face

/-! ### Slips are no reports -/

lemma faultOf?_eq_some {e : Except Fault α} (h : faultOf? e = some fault) : e = .error fault := by
  cases e with
  | error f => exact congrArg _ (Option.some.inj h)
  | ok a => exact nomatch h

lemma misusedKey_eq_some {field : String} (h : misusedKey field face = some fault) :
    (face.field field).isKey = false ∧ fault = .misuse (face.field field) .key := by
  rw [misusedKey] at h
  split at h
  · exact nomatch h
  · rename_i hkey
    exact ⟨Bool.eq_false_iff.mpr hkey, (Option.some.inj h).symm⟩

lemma largeNumber_eq_some (h : largeNumber face = some fault) :
    (face.fieldOr "NUM" (.int 0)).toDouble = .error .tooLarge ∧ fault = .tooLarge := by
  rw [largeNumber] at h
  split at h
  · rename_i hlarge
    exact ⟨hlarge, (Option.some.inj h).symm⟩
  · exact nomatch h

lemma unlistedParameters_eq_some (h : unlistedParameters face = some fault) :
    ∃ name, face.field "NAME" = .text name ∧ name ≠ "" ∧
      Procedures.parameters face = .error fault := by
  rw [unlistedParameters] at h
  split at h
  · rename_i name hname
    split at h
    · exact nomatch h
    · rename_i hne
      exact ⟨name, hname, hne, faultOf?_eq_some h⟩
  · exact nomatch h

lemma only_parameters (face : Face) : Fault.Only Fault.IsSlip (Procedures.parameters face) := by
  rw [Procedures.parameters]
  generalize (face.mutation.get? "params").getD (.list []) = v
  cases v <;> first | exact Fault.only_ok _ | exact Fault.only_error_iff.mpr trivial

lemma only_asNames (values : List Value) :
    Fault.Only Fault.IsSlip (Procedures.asNames values) := by
  induction values with
  | nil => exact Fault.only_ok _
  | cons v rest ih =>
      cases v with
      | text s => exact ih.map _
      | null | bool | int | real | list | record => exact Fault.only_error_iff.mpr trivial

/-- An entry that is looked up is in the table. -/
lemma mem_of_lookup {η : Type} {table : List (String × η)} {type : String} {h : η}
    (hlookup : table.lookup type = some h) : (type, h) ∈ table := by
  obtain ⟨before, after, rfl, -⟩ := List.lookup_eq_some_iff.mp hlookup
  exact List.mem_append_right before List.mem_cons_self

lemma isSlip_of_unnamedParameters (h : unnamedParameters face = some fault) : fault.IsSlip :=
  (only_parameters face).bind (fun _ _ => only_asNames _) _ (faultOf?_eq_some h)

/-- A slip is one of the three kinds of faults, and never a report. -/
lemma isSlip_of_slip? (h : slip? type face = some fault) : fault.IsSlip := by
  obtain ⟨slip, hlookup, hslip⟩ := Option.bind_eq_some_iff.mp h
  have hkeyed : ∀ field, misusedKey field face = some fault → fault.IsSlip := fun field h => by
    rw [(misusedKey_eq_some h).2]
    trivial
  have hlisted : unlistedParameters face = some fault → fault.IsSlip := fun h => by
    obtain ⟨name, -, -, hparameters⟩ := unlistedParameters_eq_some h
    exact only_parameters face fault hparameters
  have hmem := mem_of_lookup hlookup
  simp only [slips, List.mem_cons, List.not_mem_nil, or_false, Prod.mk.injEq] at hmem
  rcases hmem with ⟨-, rfl⟩ | ⟨-, rfl⟩ | ⟨-, rfl⟩ | ⟨-, rfl⟩ | ⟨-, rfl⟩ | ⟨-, rfl⟩ | ⟨-, rfl⟩ |
    ⟨-, rfl⟩ | ⟨-, rfl⟩
  · rw [(largeNumber_eq_some hslip).2]
    trivial
  · exact hkeyed _ hslip
  · exact hkeyed _ hslip
  · exact hkeyed _ hslip
  · exact hkeyed _ hslip
  · exact isSlip_of_unnamedParameters hslip
  · exact isSlip_of_unnamedParameters hslip
  · exact hlisted hslip
  · exact hlisted hslip

/-! ### Plans that fail -/

/-- Lists and records are no keys, and nothing else. -/
lemma eq_list_or_record {v : Value} (h : v.isKey = false) :
    (∃ items, v = .list items) ∨ ∃ entries, v = .record entries := by
  cases v with
  | list items => exact .inl ⟨items, rfl⟩
  | record entries => exact .inr ⟨entries, rfl⟩
  | null | bool | int | real | text => exact nomatch h

lemma fails_require {e : Except Fault α} (h : e = .error fault) :
    (Procedures.require e).Fails fault := by
  rw [h]
  exact rfl

lemma fails_arithmetic (h : misusedKey "OP" face = some fault) :
    (Variables.arithmetic site face).Fails fault := by
  obtain ⟨hkey, rfl⟩ := misusedKey_eq_some h
  rw [Variables.arithmetic]
  rcases eq_list_or_record hkey with ⟨items, hv⟩ | ⟨entries, hv⟩ <;> rw [hv] <;> rfl

lemma fails_compare (h : misusedKey "OP" face = some fault) :
    (Logic.compare site face).Fails fault := by
  obtain ⟨hkey, rfl⟩ := misusedKey_eq_some h
  rw [Logic.compare]
  rcases eq_list_or_record hkey with ⟨items, hv⟩ | ⟨entries, hv⟩ <;> rw [hv] <;> rfl

lemma fails_methodCall {calls : List (String × String)} {field operation : String}
    (h : misusedKey field face = some fault) :
    (Texts.methodCall calls field operation site face).Fails fault := by
  obtain ⟨hkey, rfl⟩ := misusedKey_eq_some h
  rw [Texts.methodCall]
  rcases eq_list_or_record hkey with ⟨items, hv⟩ | ⟨entries, hv⟩ <;> rw [hv] <;> rfl

lemma fails_number (h : largeNumber face = some fault) :
    (Variables.number site face).Fails fault := by
  obtain ⟨hlarge, rfl⟩ := largeNumber_eq_some h
  rw [Variables.number, hlarge]
  exact rfl

lemma fails_definition (h : unnamedParameters face = some fault) :
    (Procedures.definition site face).Fails fault :=
  (fails_require (faultOf?_eq_some h)).bind _

lemma fails_callCode (h : unlistedParameters face = some fault) :
    (Procedures.callCode face).Fails fault := by
  obtain ⟨name, hname, hne, hparameters⟩ := unlistedParameters_eq_some h
  have hfield : Texts.nameField face "NAME" "call procedure" = pure name := by
    rw [Texts.nameField, hname]
    exact if_neg hne
  rw [Procedures.callCode, hfield]
  exact fun id => (fails_require hparameters).bind _

/-- The block types with slips have handlers. -/
lemma exists_lookup_of_slip? (h : slip? type face = some fault) :
    ∃ handler, standardTable.lookup type = some handler := by
  obtain ⟨slip, hslips, -⟩ := Option.bind_eq_some_iff.mp h
  have htable : ∀ entry ∈ slips, (standardTable.lookup entry.1).isSome = true := by decide
  exact Option.isSome_iff_exists.mp (htable _ (mem_of_lookup hslips))

/-- **A slip stops the handler at once.** The plan of a block with a slip ends with its fault before
it asks for any code. -/
theorem fails_of_slip? {handler : Handler} (h : slip? type face = some fault)
    (hlookup : standardTable.lookup type = some handler) : (handler site face).Fails fault := by
  obtain ⟨slip, hslips, hslip⟩ := Option.bind_eq_some_iff.mp h
  have hmem := mem_of_lookup hslips
  simp only [slips, List.mem_cons, List.not_mem_nil, or_false, Prod.mk.injEq] at hmem
  rcases hmem with ⟨rfl, rfl⟩ | ⟨rfl, rfl⟩ | ⟨rfl, rfl⟩ | ⟨rfl, rfl⟩ | ⟨rfl, rfl⟩ | ⟨rfl, rfl⟩ |
    ⟨rfl, rfl⟩ | ⟨rfl, rfl⟩ | ⟨rfl, rfl⟩ <;> obtain rfl := Option.some.inj hlookup
  · exact fails_number hslip
  · exact fails_arithmetic hslip
  · exact fails_compare hslip
  · exact fails_methodCall hslip
  · exact fails_methodCall hslip
  · exact fails_definition hslip
  · exact fails_definition hslip
  · exact (fails_callCode hslip).bind _
  · exact (fails_callCode hslip).bind _

end Handler

end Blockscribe
