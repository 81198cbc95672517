/-
The state of one generation run.

* `Run`: the identifiers and definitions of a run, whether it is open, and what it has logged.
* `Running`: a computation on that state. A fault ends it, and what was changed before stays.
* `Run.fresh`, `named`, `provide`, `define`: the changes, each with the row that it logs.
* `Running.ofExcept`: a computation that leaves the state alone.
-/
import Blockscribe.Definitions
import Blockscribe.Fault

namespace Blockscribe

/-- The state of one generation run. -/
structure Run where
  names : NameTable
  definitions : Definitions
  isOpen : Bool
  log : List Row

/-- A computation in a run; a fault keeps what was changed before it. -/
abbrev Running := EStateM Fault Run

namespace Run

/-- A run that has not been opened. -/
def closed (reserved : List String) : Run := ⟨.empty reserved, .empty, false, []⟩

/-- Adds a row to the log. -/
def note (r : Run) (e : Event) : Run := { r with log := r.log ++ [e.row] }

/-- Forgets identifiers and definitions. -/
def reset (r : Run) (isOpen : Bool) : Run :=
  { r with names := r.names.reset, definitions := .empty, isOpen := isOpen }

/-- Logs that an identifier differs from the one that its hint asked for. -/
def noteRenaming (r : Run) (kind : NameKind) (hint identifier : String) : Run :=
  if identifier = safeName hint then r else r.note (.renamed kind hint identifier)

/-- Issues an identifier of its own. -/
def fresh (r : Run) (hint : String) (kind : NameKind) : String × Run :=
  let (identifier, names) := r.names.fresh hint
  (identifier, { r with names := names }.noteRenaming kind hint identifier)

/-- The identifier of a name, issued on first use. -/
def named (r : Run) (name : String) (kind : NameKind) : String × Run :=
  let (identifier, names) := r.names.named name kind
  let r' := { r with names := names }
  (identifier, if names.size = r.names.size then r' else r'.noteRenaming kind name identifier)

/-- The identifiers of several variables. -/
def namedAll (r : Run) : List String → List String × Run
  | [] => ([], r)
  | name :: rest =>
    let (identifier, r') := r.named name .variable
    let (more, r'') := namedAll r' rest
    (identifier :: more, r'')

/-- The identifier of a helper routine, which is defined on first request. -/
def provide (r : Run) (indent key : String) (lines : List String) : String × Run :=
  let (identifier, names, definitions, isNew) := r.definitions.provide r.names indent key lines
  let r' := { r with names := names, definitions := definitions }
  (identifier,
    if isNew then
      (r'.noteRenaming .procedure key identifier).note (.helperRegistered key identifier)
    else r')

/-- Writes a definition. -/
def define (r : Run) (key text : String) : Run :=
  { r with definitions := r.definitions.put key text }

end Run

namespace Running

/-- A computation that leaves the state alone. -/
def ofExcept {α : Type} : Except Fault α → Running α
  | .ok a => pure a
  | .error fault => throw fault

/-- A change of the state that gives something back. -/
def change {α : Type} (f : Run → α × Run) : Running α := modifyGet f

/-- The identifier of a name. -/
def named (name : String) (kind : NameKind) : Running String := change fun r => r.named name kind

/-- The identifiers of several variables. -/
def namedAll (names : List String) : Running (List String) := change fun r => r.namedAll names

/-- An identifier of its own. -/
def fresh (hint : String) (kind : NameKind) : Running String := change fun r => r.fresh hint kind

/-- Writes a definition. -/
def define (key text : String) : Running Unit := modify fun r => r.define key text

end Running

end Blockscribe
