/-
Blocks.

* `Block`: a node of a visual program, with its fields, its sockets and the block that follows it.
* `Face`: what a block says, without what it is attached to. Code is written from faces.
* `Face.numbered`: how many sockets carry a given word and a number.
-/
import Blockscribe.Text.Digit
import Blockscribe.Value

namespace Blockscribe

/-- The handle of a block. -/
abbrev BlockId := Int

/-- What may be plugged into a socket. -/
inductive SocketKind
  | value
  | statement
  deriving DecidableEq, Repr

/-- The word for a kind of socket. -/
def SocketKind.word : SocketKind → String
  | value => "value"
  | statement => "statement"

/-- The kind of socket that a word names. -/
def SocketKind.ofWord? (word : String) : Option SocketKind :=
  [value, statement].find? fun k => k.word == word

/-- A named place on a block where another block can be plugged in. -/
structure Socket where
  name : String
  kind : SocketKind
  target : Option BlockId
  deriving DecidableEq, Repr

/-- What a block says, without what it is attached to. -/
structure Face where
  type : String
  fields : Entries
  mutation : Entries
  sockets : List String

/-- A block before it has a handle. -/
structure Draft where
  type : String
  fields : Entries
  sockets : List Socket
  next : Option BlockId
  comment : Value
  disabled : Bool
  mutation : Entries

/-- A node of a visual program. -/
structure Block extends Draft where
  id : BlockId

namespace Face

/-- The value of a field; null without one. -/
def field (f : Face) (name : String) : Value := (f.fields.get? name).getD .null

/-- The value of a field, or a default without one. -/
def fieldOr (f : Face) (name : String) (default : Value) : Value :=
  (f.fields.get? name).getD default

/-- Whether there is a field of a name. -/
def hasField (f : Face) (name : String) : Bool := f.fields.has name

/-- Whether there is a socket of a name. -/
def hasSocket (f : Face) (name : String) : Bool := f.sockets.contains name

/-- Whether a name is a word followed by digits. -/
def isNumbered (word name : String) : Bool :=
  word.toList.isPrefixOf name.toList &&
    let rest := name.toList.drop word.length
    !rest.isEmpty && rest.all Text.isDigit

/-- How many sockets carry a word and a number. -/
def numbered (f : Face) (word : String) : Nat := (f.sockets.filter (isNumbered word)).length

end Face

namespace Block

/-- What a block says. -/
def face (b : Block) : Face := ⟨b.type, b.fields, b.mutation, b.sockets.map Socket.name⟩

/-- The first socket of a name. -/
def socket? (b : Block) (name : String) : Option Socket := b.sockets.find? fun s => s.name == name

/-- The sockets that take a value. -/
def valueSockets (b : Block) : List Socket := b.sockets.filter fun s => s.kind == .value

end Block

end Blockscribe
