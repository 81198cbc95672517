/-
Handlers by block type.

* `HandlerSet`: at most one handler for every block type, and which types define procedures.
* `HandlerSet.register`, `registerAll`: a type that has a handler already is refused; `registerAll`
  goes through its list and stops at the first refusal.
* `HandlerSet.missing`: the expected types that have no handler, sorted.
* `info?_register`: registering adds the one type and changes no other.
-/
import Blockscribe.Fault

namespace Blockscribe

/-- A handler and whether its blocks define procedures. -/
structure Registration (η : Type) where
  type : String
  handler : η
  definesProcedure : Bool

/-- Handlers in the order of their registration. -/
structure HandlerSet (η : Type) where
  registrations : List (Registration η)

namespace HandlerSet

variable {η : Type}

/-- No handlers. -/
def empty : HandlerSet η := ⟨[]⟩

/-- The registration of a block type. -/
def info? (s : HandlerSet η) (type : String) : Option (Registration η) :=
  s.registrations.find? fun r => r.type == type

/-- Whether a block type has a handler. -/
def has (s : HandlerSet η) (type : String) : Bool := (s.info? type).isSome

/-- Registers the handler of a block type that has none. -/
def register (s : HandlerSet η) (r : Registration η) : Except Fault (HandlerSet η) :=
  if s.has r.type then .error (.flaw (.handlerTaken r.type))
  else .ok ⟨s.registrations ++ [r]⟩

/-- Registers handlers one after the other, up to the first that is refused. -/
def registerAll (s : HandlerSet η) : List (Registration η) → HandlerSet η × Option Fault
  | [] => (s, none)
  | r :: rest =>
    match s.register r with
    | .ok s' => s'.registerAll rest
    | .error fault => (s, some fault)

/-- Registers a mapping of handlers; the listed types define procedures. -/
def update (s : HandlerSet η) (handlers : List (String × η)) (procedures : List String) :
    HandlerSet η × Option Fault :=
  s.registerAll (handlers.map fun (type, h) => ⟨type, h, procedures.contains type⟩)

/-- The handler of a block type. -/
def resolve (s : HandlerSet η) (type : String) : Except Fault η :=
  match s.info? type with
  | some r => .ok r.handler
  | none => .error (.failure (.missingHandler type))

/-- Whether blocks of a type define procedures. -/
def isProcedure (s : HandlerSet η) (type : String) : Bool :=
  (s.info? type).any Registration.definesProcedure

/-- The block types, in the order of their registration. -/
def types (s : HandlerSet η) : List String := s.registrations.map Registration.type

/-- How many block types have a handler. -/
def size (s : HandlerSet η) : Nat := s.registrations.length

/-- Texts in the order of their code points. -/
def sorted (texts : List String) : List String := texts.mergeSort fun a b => decide (a ≤ b)

/-- The expected types without a handler, each once, sorted. -/
def missing (s : HandlerSet η) (expected : List String) : List String :=
  sorted (expected.eraseDups.filter fun type => !s.has type)

/-- Checks that every expected type has a handler. -/
def validate (s : HandlerSet η) (expected : List String) : Except Fault Unit :=
  match s.missing expected with
  | [] => .ok ()
  | types => .error (.failure (.missingHandlers types))

/-- Registering adds the one type and changes no other. -/
theorem info?_register {s s' : HandlerSet η} {r : Registration η} (h : s.register r = .ok s')
    (type : String) :
    s'.info? type = if type = r.type then some r else s.info? type := by
  unfold register at h
  split at h
  · cases h
  · rename_i hfree
    cases h
    simp only [has, info?, Bool.not_eq_true, Option.isSome_eq_false_iff, Option.isNone_iff_eq_none,
      List.find?_eq_none, beq_iff_eq] at hfree
    simp only [info?, List.find?_append]
    by_cases ht : type = r.type
    · subst ht
      have : s.registrations.find? (fun x => x.type == r.type) = none := by
        simpa [List.find?_eq_none] using hfree
      simp [this]
    · have hb : (r.type == type) = false := by simpa using fun he => ht he.symm
      simp [ht, hb]

end HandlerSet

end Blockscribe
