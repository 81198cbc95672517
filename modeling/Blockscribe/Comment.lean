/-
Comments of blocks.

* `fillComment`: a comment filled to a width. A width that no line has room in is refused, unless
  there is nothing to fill.
* `Workspace.gather`: the comments of a block and of the values plugged into it.
* `Workspace.ownComment`, `nestedComments`, `commentsFor`: a block's own comment as code, those of
  a plugged-in value one per line, and all that stands in front of a block. A block that is itself
  plugged into a value socket has nothing in front; its comments are gathered by the statement
  around it.
-/
import Blockscribe.Dialect.Basic
import Blockscribe.Number.Extent
import Blockscribe.Text.Wrap
import Blockscribe.Workspace

namespace Blockscribe

/-- A text filled to a width. -/
def fillText (width : Extent) (text : String) : Except Fault String :=
  if !width.isUsable && (Text.splitLines text.toList).any (!Text.allBlank ·) then
    .error (.flaw (.width width.toValue))
  else .ok (String.ofList (Text.wrapText width.fits text.toList))

/-- The text of a comment; nothing counts as no comment, and only texts can be filled. -/
def fillComment (width : Extent) (comment : Value) : Except Fault String :=
  if !comment.isTruthy then .ok ""
  else
    match comment with
    | .text s => fillText width s
    | v => .error (.noMember v.kindName "split")

/-- Comments one per line; only texts can be put together. -/
def joinComments (comments : List Value) : Except Fault String :=
  match comments.mapM Value.asText? with
  | some [] => .ok ""
  | some texts => .ok ("\n".intercalate texts ++ "\n")
  | none => .error (.misuse (.list comments) .text)

namespace Workspace

/-- The comments of a block and of the values plugged into it, to a depth of `fuel`. -/
def gather (w : Workspace) : Nat → Block → Except Fault (List Value)
  | 0, _ => .error .tooDeep
  | fuel + 1, b => do
    let nested ← b.valueSockets.mapM fun s => do
      match ← w.targetOf b s.name with
      | none => return []
      | some child => w.gather fuel child
    return (if b.comment.isTruthy then [b.comment] else []) ++ nested.flatten

/-- The comments of a block and of the values plugged into it, one per line. -/
def nestedComments (w : Workspace) (b : Block) : Except Fault String := do
  joinComments (← w.gather (w.size + 1) b)

/-- The own comment of a block as code. -/
def ownComment (dialect : Dialect) (width : Extent) (isProcedure : Bool) (b : Block) :
    Except Fault String := do
  let comment ← fillComment width b.comment
  if comment = "" then return ""
  else if isProcedure then return dialect.docComment comment
  else return leadLines dialect.lineComment (comment ++ "\n")

/-- The comments in the value sockets of a block as code. -/
def pluggedComments (w : Workspace) (dialect : Dialect) (b : Block) : Except Fault String := do
  let parts ← b.valueSockets.mapM fun s => do
    match ← w.targetOf b s.name with
    | none => return ""
    | some child =>
      let nested ← w.nestedComments child
      return if nested = "" then "" else leadLines dialect.lineComment nested
  return String.join parts

/-- All comments that stand in front of a block's code. -/
def commentsFor (w : Workspace) (dialect : Dialect) (width : Extent) (isProcedure : Bool)
    (b : Block) : Except Fault String := do
  if w.isInline b.id then return ""
  else
    let own ← ownComment dialect width isProcedure b
    let plugged ← w.pluggedComments dialect b
    return own ++ plugged

end Workspace

end Blockscribe
