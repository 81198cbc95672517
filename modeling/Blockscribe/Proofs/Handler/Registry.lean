/-
Looking up handlers in the standard set.

* `HandlerSet.registerAll_eq`: handlers of distinct types are all registered, in their order.
* `resolve_standard`: a type is resolved to its entry in the table of the standard handlers, and to
  nothing without one.
* `shallow_of_resolve`: no handler that is found there reports that the recursion is too deep.
-/
import Mathlib.Data.List.Nodup
import Blockscribe.Proofs.Handler.Faults

namespace Blockscribe

namespace HandlerSet

variable {η : Type}

/-- Handlers are all registered if no type is taken or occurs twice. -/
lemma registerAll_eq {s : HandlerSet η} {rs : List (Registration η)}
    (h : ((s.registrations ++ rs).map Registration.type).Nodup) :
    s.registerAll rs = (⟨s.registrations ++ rs⟩, none) := by
  induction rs generalizing s with
  | nil => rw [registerAll, List.append_nil]
  | cons r rest ih =>
      have hfree : s.has r.type = false := by
        rw [has, Option.isSome_eq_false_iff, Option.isNone_iff_eq_none, info?,
          List.find?_eq_none]
        intro other hother heq
        rw [List.map_append, List.nodup_append'] at h
        refine h.2.2 (List.mem_map_of_mem hother) ?_
        exact (beq_iff_eq.mp heq) ▸ List.mem_cons_self
      have hstep : s.register r = .ok ⟨s.registrations ++ [r]⟩ := by
        rw [register, hfree]
        rfl
      have happend : s.registrations ++ [r] ++ rest = s.registrations ++ r :: rest := by
        rw [List.append_assoc, List.singleton_append]
      simp only [registerAll, hstep]
      rw [ih (by rw [happend]; exact h), happend]

/-- What is found among registrations made from a table is what the table has. -/
lemma find?_map_eq (table : List (String × η)) (procedure : String → Bool) (type : String) :
    (table.map fun entry => (⟨entry.1, entry.2, procedure entry.1⟩ : Registration η)).find?
        (fun r => r.type == type) =
      (table.lookup type).map fun h => ⟨type, h, procedure type⟩ := by
  induction table with
  | nil => rfl
  | cons entry rest ih =>
      obtain ⟨key, h⟩ := entry
      rw [List.map_cons, List.find?_cons, List.lookup_cons, ih]
      by_cases hkey : key = type
      · simp [hkey]
      · have hleft : (key == type) = false := by simpa using hkey
        have hright : (type == key) = false := by simpa using fun he => hkey he.symm
        rw [hleft, hright]

end HandlerSet

namespace Handler

/-- No block type has two standard handlers. -/
lemma nodup_standardTable : (standardTable.map Prod.fst).Nodup := by
  decide

/-- The standard set has the handlers of the table. -/
lemma registrations_standard :
    standard.registrations = standardTable.map fun entry =>
      ⟨entry.1, entry.2, Procedures.definers.contains entry.1⟩ := by
  have hall : standardTable.filter (fun entry => !([] : List String).contains entry.1) =
      standardTable :=
    List.filter_eq_self.mpr fun _ _ => rfl
  rw [standard, standardSetUnchecked, hall, HandlerSet.update, HandlerSet.registerAll_eq]
  · rfl
  · rw [HandlerSet.empty, List.nil_append, List.map_map]
    exact nodup_standardTable

/-- What the standard set knows of a type is the table's entry. -/
lemma info?_standard (type : String) :
    standard.info? type = (standardTable.lookup type).map fun h =>
      ⟨type, h, Procedures.definers.contains type⟩ := by
  rw [HandlerSet.info?, registrations_standard]
  exact HandlerSet.find?_map_eq standardTable Procedures.definers.contains type

/-- A type of the table is resolved to its handler. -/
lemma resolve_standard {type : String} {h : Handler}
    (hlookup : standardTable.lookup type = some h) : standard.resolve type = .ok h := by
  rw [HandlerSet.resolve, info?_standard, hlookup]
  rfl

/-- A type outside the table is not resolved. -/
lemma resolve_standard_of_none {type : String} (hlookup : standardTable.lookup type = none) :
    standard.resolve type = .error (.failure (.missingHandler type)) := by
  rw [HandlerSet.resolve, info?_standard, hlookup]
  rfl

/-- What a type is resolved to is its handler in the table. -/
lemma lookup_of_resolve {type : String} {h : Handler} (hresolve : standard.resolve type = .ok h) :
    standardTable.lookup type = some h := by
  cases hlookup : standardTable.lookup type with
  | none => exact nomatch (resolve_standard_of_none hlookup).symm.trans hresolve
  | some h' => rw [Except.ok.inj ((resolve_standard hlookup).symm.trans hresolve)]

/-- Blocks of other types define no procedures. -/
lemma isProcedure_standard {type : String} (h : type ∉ Procedures.definers) :
    standard.isProcedure type = false := by
  rw [HandlerSet.isProcedure, info?_standard]
  cases standardTable.lookup type with
  | none => rfl
  | some handler => exact Bool.eq_false_iff.mpr fun hmem => h (List.contains_iff_mem.mp hmem)

/-- The types that define procedures have the same handler. -/
lemma lookup_of_mem_definers {type : String} (h : type ∈ Procedures.definers) :
    standardTable.lookup type = some Procedures.definition := by
  simp only [Procedures.definers, List.mem_cons, List.not_mem_nil, or_false] at h
  rcases h with rfl | rfl <;> rfl

/-- A type without a handler is reported. -/
lemma refused_resolve (type : String) : Fault.Only Fault.IsRefusal (standard.resolve type) := by
  cases hlookup : standardTable.lookup type with
  | none =>
      rw [resolve_standard_of_none hlookup]
      exact Fault.only_error_iff.mpr trivial
  | some h =>
      rw [resolve_standard hlookup]
      exact Fault.only_ok h

/-- No handler of the standard set reports that the recursion is too deep. -/
lemma shallow_of_resolve {type : String} {h : Handler} (hresolve : standard.resolve type = .ok h)
    (site : Site) (face : Face) : (h site face).Shallow :=
  shallow_of_mem_standardTable (mem_of_lookup (lookup_of_resolve hresolve)) site face

end Handler

end Blockscribe
