/-
What can go wrong.

* `Failure`: the library's own reports, each with its cause. `Failure.message` is the sentence,
  `Failure.details` what is listed behind it, and `Failure.text` the two together.
* `Flaw`: an argument that no operation accepts, such as a rank that does not exist.
* `Usage`: what a value can be used for, given that it is of the right kind.
* `Fault`: a failure, a flaw, or a value of a kind that cannot be used the way it was.
* `Failure.text_of_details_nil`: a report without details is its sentence alone.
-/
import Blockscribe.Value

namespace Blockscribe

/-- Why a block graph is refused. -/
inductive GraphFlaw
  | unknownBlock
  | sharedBlock
  | cycle
  | described (text : String)
  deriving DecidableEq, Repr

/-- The sentence for a refused block graph. -/
def GraphFlaw.message : GraphFlaw → String
  | unknownBlock => "Unknown block handle"
  | sharedBlock => "Block is attached to more than one parent"
  | cycle => "Cycle in block graph"
  | described text => text

/-- Why settings are refused. -/
inductive SettingFlaw
  | unknownDialect (name : String) (available : List String)
  | narrowComments (allowance : Nat) (wrap : Value)
  | badIndent (indent : Value)
  | described (text : String) (details : Entries)

/-- A report of the library. -/
inductive Failure
  | general (text : String) (details : Entries)
  | block (type operation reason : String)
  | combination (type operation : String) (fields : Entries)
  | missingHandler (type : String)
  | missingHandlers (types : List String)
  | workspace (flaw : GraphFlaw) (block : Option Int)
  | settings (flaw : SettingFlaw)

namespace Failure

/-- The type of the block that a report is about. -/
def blockType? : Failure → Option String
  | block type _ _ => some type
  | combination type _ _ => some type
  | missingHandler type => some type
  | _ => none

/-- What was being done with that block. -/
def operation? : Failure → Option String
  | block _ operation _ => some operation
  | combination _ operation _ => some operation
  | missingHandler _ => some "generate code"
  | _ => none

/-- Entries listed as `name=value`, the value written by `write`. -/
def listed (write : Value → String) (entries : Entries) : String :=
  ", ".intercalate (entries.map fun (k, v) => k ++ "=" ++ write v)

/-- Why it could not be done. -/
def reason? : Failure → Option String
  | block _ _ reason => some reason
  | combination _ _ fields =>
    some ("unhandled combination" ++
      if fields.isEmpty then "" else " " ++ listed Value.shown fields)
  | missingHandler _ => some "no handler registered"
  | _ => none

/-- The sentence about a block: what could not be done, for which type, and why. -/
def blockMessage (type operation reason : String) : String :=
  "Cannot " ++ operation ++ " for block type '" ++ type ++ "'" ++
    if reason = "" then "" else ": " ++ reason

/-- The sentence of a report. -/
def message (f : Failure) : String :=
  match f with
  | general text _ => text
  | missingHandlers types =>
    "Handler set is missing " ++ toString types.length ++ " block types"
  | workspace flaw _ => flaw.message
  | settings (.unknownDialect name _) => "Unknown dialect '" ++ name ++ "'"
  | settings (.narrowComments allowance _) =>
    "comment_wrap must be larger than " ++ toString allowance
  | settings (.badIndent _) => "indent must be a non-empty run of whitespace"
  | settings (.described text _) => text
  | f => blockMessage (f.blockType?.getD "") (f.operation?.getD "") (f.reason?.getD "")

/-- What a report lists behind its sentence. -/
def details (f : Failure) : Entries :=
  match f with
  | general _ details => details
  | missingHandlers types => [("missing", .text (", ".intercalate types))]
  | workspace _ none => []
  | workspace _ (some id) => [("block_id", .int id)]
  | settings (.unknownDialect _ available) =>
    [("available", .text (", ".intercalate available))]
  | settings (.narrowComments _ wrap) => [("comment_wrap", wrap)]
  | settings (.badIndent indent) => [("indent", .text indent.shown)]
  | settings (.described _ details) => details
  | f =>
    [("block_type", .text (f.blockType?.getD "")), ("operation", .text (f.operation?.getD ""))]

/-- A report as text: the sentence, and the details in parentheses if there are any. -/
def text (f : Failure) : String :=
  if f.details.isEmpty then f.message
  else f.message ++ " (" ++ listed Value.display f.details ++ ")"

/-- A report without details is its sentence alone. -/
theorem text_of_details_nil {f : Failure} (h : f.details = []) : f.text = f.message := by
  simp [text, h]

end Failure

/-- An argument that no operation accepts. -/
inductive Flaw
  | unknownRank (rank : Value)
  | handlerTaken (type : String)
  | width (given : Value)
  | notANumber (text : String)
  | nameKind (given : Value)
  | socketKind (given : Value)
  | level (given : String)

/-- The sentence for an argument that no operation accepts. -/
def Flaw.text : Flaw → String
  | unknownRank rank => "Unknown precedence rank: " ++ rank.shown
  | handlerTaken type => "Handler for block type '" ++ type ++ "' already registered"
  | width given => "invalid width " ++ given.shown ++ " (must be > 0)"
  | notANumber text => "could not convert string to float: " ++ showText text
  | nameKind given => given.shown ++ " is not a valid NameType"
  | socketKind given => given.shown ++ " is not a valid SocketKind"
  | level given => "Unknown level: " ++ showText given

/-- What a value was used for. -/
inductive Usage
  | comparison
  | collection
  | key
  | sequence
  | number
  | text
  | fileName
  | level
  deriving DecidableEq, Repr

/-- What a value of some kind cannot be used for, as text. -/
def Usage.refusal (kind : String) : Usage → String
  | comparison => "'<=' not supported between instances of '" ++ kind ++ "' and 'int'"
  | collection => "'" ++ kind ++ "' object is not subscriptable"
  | key => kind ++ " is no key"
  | sequence => kind ++ " is no sequence"
  | number => kind ++ " is no number"
  | text => kind ++ " is no text"
  | fileName => kind ++ " is no file name"
  | level => kind ++ " is no level"

/-- Anything that stops an operation. -/
inductive Fault
  | failure (report : Failure)
  | flaw (argument : Flaw)
  | wrongKind (kind : String) (use : Usage)
  | noMember (kind member : String)
  | tooLarge
  | noKey (key : Value)
  | noItem (kind : String)
  | tooDeep

namespace Fault

/-- What stopped an operation, as text. -/
def text : Fault → String
  | failure report => report.text
  | flaw argument => argument.text
  | wrongKind kind use => use.refusal kind
  | noMember kind member => "'" ++ kind ++ "' object has no attribute '" ++ member ++ "'"
  | tooLarge => "int too large to convert to float"
  | noKey key => key.shown
  | noItem kind => kind ++ " index out of range"
  | tooDeep => "block graph is too deep"

/-- A value that cannot be used in some way. -/
def misuse (v : Value) (use : Usage) : Fault := wrongKind v.kindName use

/-- A report about a block. -/
def block (type operation reason : String) : Fault := failure (.block type operation reason)

/-- A report about a combination of field values that a block's handler does not know. -/
def combination (type operation : String) (fields : Entries) : Fault :=
  failure (.combination type operation fields)

/-- A report about a block graph. -/
def graph (flaw : GraphFlaw) (block : Int) : Fault := failure (.workspace flaw (some block))

end Fault

end Blockscribe
