/-
Workspaces while they are built.

* `Workbench`: the blocks under their handles, the handle that the next block gets, and the index of
  what is above each block, if it has been made since a link last changed.
* `Working`: an operation on a workbench. A fault ends it, and what was changed before stays.
* `Workbench.add`, `chain`, `declare`: the edits. Those that change links drop the index.
* `Workbench.fetch`, `targetOf`, `nextOf`, `validate`, `topBlocks`, `isInline`: the queries. The last
  two make the index if there is none, and keep it.
* `Workbench.plain`: the workspace that is being built.
-/
import Blockscribe.Assoc
import Blockscribe.Workspace

namespace Blockscribe

/-- What is above each block that is referred to: the block that refers to it and the kind of socket
that does. -/
abbrev ParentIndex := List (BlockId × BlockId × Option SocketKind)

/-- The index of a workspace. Of several references to a block the last one counts. -/
def Workspace.parentIndex (w : Workspace) : ParentIndex :=
  Assoc.ofPairs (w.links.map fun l => (l.child, l.parent, l.kind))

/-- A workspace that is being built. -/
structure Workbench where
  declared : List String
  blocks : List (BlockId × Block)
  nextId : BlockId
  index : Option ParentIndex

/-- An operation on a workbench; a fault keeps what was changed before it. -/
abbrev Working := EStateM Fault Workbench

/-- A computation that leaves the workbench alone. -/
def Working.ofExcept {α : Type} : Except Fault α → Working α
  | .ok a => pure a
  | .error fault => throw fault

namespace Workbench

/-- Nothing built yet; variables are declared as given. -/
def empty (declared : List String) : Workbench := ⟨declared, [], 1, none⟩

/-- The workspace that is being built. -/
def plain (s : Workbench) : Workspace := ⟨s.declared, s.blocks.map Prod.snd⟩

/-! ### Edits -/

/-- The block with a handle; without one the handle is reported. -/
def fetch (id : BlockId) : Working Block := do
  match (← get).blocks.lookup id with
  | some b => return b
  | none => throw (.graph .unknownBlock id)

/-- Reports the first handle that has no block. -/
def require : List BlockId → Working Unit
  | [] => return ()
  | id :: rest => do
    let _ ← fetch id
    require rest

/-- Puts a block at the end, under the next handle. -/
def append (d : Draft) : Working BlockId :=
  modifyGet fun s =>
    (s.nextId, { s with
      blocks := Assoc.put s.blocks s.nextId { d with id := s.nextId }, nextId := s.nextId + 1 })

/-- Makes one block follow another. -/
def follow (id next : BlockId) : Working Unit := do
  match (← get).blocks.lookup id with
  | some b =>
    modify fun s => { s with blocks := Assoc.put s.blocks id { b with next := some next } }
  | none => throw (.noKey (.int id))

/-- Makes the second block of each pair follow the first. -/
def followAll : List (BlockId × BlockId) → Working Unit
  | [] => return ()
  | (id, next) :: rest => do
    follow id next
    followAll rest

/-- Drops the index. -/
def dropIndex : Working Unit := modify fun s => { s with index := none }

/-- Adds a block whose children exist. -/
def add (d : Draft) : Working BlockId := do
  require (d.sockets.filterMap Socket.target)
  require d.next.toList
  let id ← append d
  dropIndex
  return id

/-- Links blocks in a row; the first handle is the answer. -/
def chain (ids : List BlockId) : Working (Option BlockId) := do
  require ids
  followAll (ids.zip ids.tail)
  dropIndex
  return ids.head?

/-- Declares a variable unless it is declared already. -/
def declare (name : String) : Working Unit :=
  modify fun s =>
    if s.declared.contains name then s else { s with declared := s.declared ++ [name] }

/-! ### Queries -/

/-- The block plugged into the first socket of a name. -/
def targetOf (b : Block) (name : String) : Working (Option Block) :=
  match (b.socket? name).bind Socket.target with
  | none => return none
  | some id => do return some (← fetch id)

/-- The block that follows another. -/
def nextOf (b : Block) : Working (Option Block) :=
  match b.next with
  | none => return none
  | some id => do return some (← fetch id)

/-- Checks that no block is referred to twice and that no block is above itself. -/
def validate : Working Unit := do Working.ofExcept (← get).plain.validate

/-- The index; it is made if there is none. -/
def parents : Working ParentIndex := do
  let s ← get
  match s.index with
  | some index => return index
  | none =>
    set { s with index := some s.plain.parentIndex }
    return s.plain.parentIndex

/-- The blocks that nothing refers to, in the order in which they were added. -/
def topBlocks : Working (List Block) := do
  let index ← parents
  return (← get).plain.blocks.filter fun b => !(index.map Prod.fst).contains b.id

/-- Whether a block is plugged into a value socket. -/
def isInline (id : BlockId) : Working Bool := do
  let index ← parents
  return (index.lookup id).any fun above => above.2 == some .value

end Workbench

end Blockscribe
