/-
Indexes into lists and texts.

* `indexAt`: the index in a socket, moved by an offset and possibly counted from the end. A numeral
  is computed now; for any other expression the computation is written into the program.
* `sliceStart`, `sliceEnd`: the two ends of a part of a list or text.
* `shiftFor`: the offset less one where indexes start at one.
-/
import Blockscribe.Definitions
import Blockscribe.Number.Reading
import Blockscribe.Plan

namespace Blockscribe.Handler

/-- The offset of an index, given where indexes start. -/
def shiftFor (site : Site) (offset : Int) : Int := if site.oneBased then offset - 1 else offset

/-- The index that an empty socket stands for. -/
def firstIndex (site : Site) : String := if site.oneBased then "1" else "0"

/-- An index with the computation of its offset and sign written out. -/
def computedIndex (index : String) (shift : Int) (negate : Bool) : String :=
  let moved :=
    if shift > 0 then "int(" ++ index ++ " + " ++ toString shift ++ ")"
    else if shift < 0 then "int(" ++ index ++ " - " ++ toString (-shift) ++ ")"
    else "int(" ++ index ++ ")"
  if negate then "-" ++ moved else moved

/-- A numeral with its offset and sign applied. -/
def foldedIndex (numeral : String) (shift : Int) (negate : Bool) : Except Fault String :=
  match Number.readDouble? numeral with
  | none => .error (.flaw (.notANumber numeral))
  | some x =>
    match x.truncate? with
    | none => .error .tooLarge
    | some i => .ok (toString (if negate then -(i + shift) else i + shift))

/-- The index in a socket, moved by an offset and with its sign changed if it counts from the
end. -/
def indexAt (site : Site) (socket : String) (offset : Int) (negate : Bool) : Plan String := do
  let shift := shiftFor site offset
  let index ← Plan.expr socket (if shift = 0 then .none else .additive) (firstIndex site)
  if Number.isNumeral index then
    match foldedIndex index shift negate with
    | .ok folded => return folded
    | .error fault => Plan.fail fault
  else return computedIndex index shift negate

/-- The start of a part, from the field `WHERE1` and the socket `AT1`. -/
def sliceStart (site : Site) (face : Face) (operation : String) : Plan String := do
  let origin := face.field "WHERE1"
  if origin.isText "FROM_START" then
    let start ← indexAt site "AT1" 0 false
    return if start = "0" then "" else start
  else if origin.isText "FROM_END" then indexAt site "AT1" 1 true
  else if origin.isText "FIRST" then return ""
  else Plan.refuse face.type operation [("WHERE1", origin)]

/-- The end of a part, from the field `WHERE2` and the socket `AT2`. A computed end of zero must
still reach the last element, which is what the largest index is for. -/
def sliceEnd (site : Site) (face : Face) (operation : String) : Plan String := do
  let origin := face.field "WHERE2"
  if origin.isText "FROM_START" then indexAt site "AT2" 1 false
  else if origin.isText "FROM_END" then
    let stop ← indexAt site "AT2" 0 true
    if !Number.isNumeral stop then
      Plan.writeDefinition "import_sys" "import sys"
      return stop ++ " or sys.maxsize"
    else return if stop = "0" then "" else stop
  else if origin.isText "LAST" then return ""
  else Plan.refuse face.type operation [("WHERE2", origin)]

/-- The part between the two ends of a list or text. -/
def slice (site : Site) (face : Face) (operation sequence : String) : Plan Outcome := do
  let start ← sliceStart site face operation
  let stop ← sliceEnd site face operation
  return .expr (sequence ++ "[" ++ start ++ " : " ++ stop ++ "]") .member

/-- The fields that say where an element is taken from. -/
def places : List String := ["FIRST", "LAST", "FROM_START", "FROM_END"]

/-- The words of a helper routine that stand for its own name. -/
def self : String := Definitions.ownName

end Blockscribe.Handler
