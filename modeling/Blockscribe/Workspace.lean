/-
Workspaces: the blocks of a visual program and its declared variables.

* `Workspace.add`, `chain`, `declare`: the edits. Children exist before the block that refers to
  them; `chain` links blocks that exist already, in a row.
* `Workspace.links`: every reference from one block to another.
* `Workspace.topBlocks`, `isInline`: the blocks nothing refers to, and those plugged into a value
  socket.
* `Workspace.validate`: refuses a block that is referred to twice, and cycles.
* `mem_topBlocks_iff`: a top block is a block that no link refers to.
-/
import Blockscribe.Block
import Blockscribe.Fault

namespace Blockscribe

/-- Blocks in the order in which they were added, and the declared variables. -/
structure Workspace where
  declared : List String
  blocks : List Block

/-- A reference from a block to another; one to the block that follows has no socket kind. -/
structure Link where
  parent : BlockId
  child : BlockId
  kind : Option SocketKind
  deriving DecidableEq, Repr

/-- The references that a block makes: its sockets in order, then the block that follows. -/
def Block.links (b : Block) : List Link :=
  (b.sockets.filterMap fun s => s.target.map fun t => ⟨b.id, t, some s.kind⟩) ++
    (b.next.map fun n => ⟨b.id, n, none⟩).toList

namespace Workspace

/-- A workspace without blocks; variables are declared as given. -/
def empty (declared : List String) : Workspace := ⟨declared, []⟩

/-- The block with a handle. -/
def find? (w : Workspace) (id : BlockId) : Option Block := w.blocks.find? fun b => b.id == id

/-- Whether there is a block with a handle. -/
def has (w : Workspace) (id : BlockId) : Bool := (w.find? id).isSome

/-- The block with a handle; without one the handle is reported. -/
def get (w : Workspace) (id : BlockId) : Except Fault Block :=
  match w.find? id with
  | some b => .ok b
  | none => .error (.graph .unknownBlock id)

/-- Reports the first handle that has no block. -/
def require (w : Workspace) : List BlockId → Except Fault Unit
  | [] => .ok ()
  | id :: rest => if w.has id then w.require rest else .error (.graph .unknownBlock id)

/-- The handle that the next block gets. -/
def nextId (w : Workspace) : BlockId := w.blocks.length + 1

/-- Adds a block whose children exist. -/
def add (w : Workspace) (d : Draft) : Except Fault (BlockId × Workspace) := do
  w.require (d.sockets.filterMap Socket.target)
  w.require d.next.toList
  return (w.nextId, { w with blocks := w.blocks ++ [{ d with id := w.nextId }] })

/-- Makes one block follow another. -/
def follow (w : Workspace) (id next : BlockId) : Workspace :=
  { w with blocks := w.blocks.map fun b => if b.id = id then { b with next := some next } else b }

/-- Links blocks in a row; the first handle is the answer. -/
def chain (w : Workspace) (ids : List BlockId) : Except Fault (Option BlockId × Workspace) := do
  w.require ids
  return (ids.head?, (ids.zip ids.tail).foldl (fun w (id, next) => w.follow id next) w)

/-- Declares a variable unless it is declared already. -/
def declare (w : Workspace) (name : String) : Workspace :=
  if w.declared.contains name then w else { w with declared := w.declared ++ [name] }

/-- How many blocks there are. -/
def size (w : Workspace) : Nat := w.blocks.length

/-- The block plugged into the first socket of a name. -/
def targetOf (w : Workspace) (b : Block) (name : String) : Except Fault (Option Block) :=
  match (b.socket? name).bind Socket.target with
  | none => .ok none
  | some id => (w.get id).map some

/-- The block that follows another. -/
def nextOf (w : Workspace) (b : Block) : Except Fault (Option Block) :=
  match b.next with
  | none => .ok none
  | some id => (w.get id).map some

/-- Every reference, block by block. -/
def links (w : Workspace) : List Link := w.blocks.flatMap Block.links

/-- The last reference to a block. -/
def linkTo? (w : Workspace) (id : BlockId) : Option Link :=
  w.links.reverse.find? fun l => l.child == id

/-- The blocks that nothing refers to, in the order in which they were added. -/
def topBlocks (w : Workspace) : List Block :=
  w.blocks.filter fun b => !(w.links.any fun l => l.child == b.id)

/-- Whether a block is plugged into a value socket. -/
def isInline (w : Workspace) (id : BlockId) : Bool :=
  match w.linkTo? id with
  | some l => l.kind == some .value
  | none => false

/-- The first entry of a list that occurs in `seen` or earlier in the list. -/
def firstRepeat (seen : List BlockId) : List BlockId → Option BlockId
  | [] => none
  | id :: rest => if seen.contains id then some id else firstRepeat (id :: seen) rest

/-- Climbs from a block to the blocks above it and finds the first one that is met twice; `fuel`
bounds the climb. -/
def climb (parent : BlockId → Option BlockId) : Nat → List BlockId → BlockId → Option BlockId
  | 0, _, _ => none
  | fuel + 1, seen, id =>
    if seen.contains id then some id
    else
      match parent id with
      | none => none
      | some above => climb parent fuel (id :: seen) above

/-- The block above another one, if every block has at most one. -/
def parent? (w : Workspace) (id : BlockId) : Option BlockId :=
  (w.links.find? fun l => l.child == id).map Link.parent

/-- Checks that no block is referred to twice and that no block is above itself. -/
def validate (w : Workspace) : Except Fault Unit :=
  match firstRepeat [] (w.links.map Link.child) with
  | some id => .error (.graph .sharedBlock id)
  | none =>
    match w.blocks.findSome? fun b => climb w.parent? (w.size + 1) [] b.id with
    | some id => .error (.graph .cycle id)
    | none => .ok ()

/-- A top block is a block that no link refers to. -/
theorem mem_topBlocks_iff {w : Workspace} {b : Block} :
    b ∈ w.topBlocks ↔ b ∈ w.blocks ∧ ∀ l ∈ w.links, l.child ≠ b.id := by
  simp [topBlocks]

end Workspace

end Blockscribe
