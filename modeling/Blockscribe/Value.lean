/-
Values of fields, settings and data files.

* `Value`: null, truth values, integers of any size, doubles, texts, lists and records. The entries
  of a record keep their order.
* `Value.shown`, `Value.display`: a value as messages show it; the two differ on texts only, which
  `shown` puts between quotes.
* `Value.isTruthy`: what counts as given; null, false, zero and everything empty do not.
* `Entries.get?`, `Entries.set`: look-up and replacement in a record; `Entries.get?_set` ties them.
-/
import Blockscribe.Assoc
import Blockscribe.Number.Decimal
import Blockscribe.Text.Shown

namespace Blockscribe

/-- A value of a field, a setting or a data file. -/
inductive Value
  | null
  | bool (b : Bool)
  | int (i : Int)
  | real (x : Double)
  | text (s : String)
  | list (items : List Value)
  | record (entries : List (String × Value))
  deriving Inhabited, Repr

/-- Named values in order. -/
abbrev Entries := List (String × Value)

namespace Entries

/-- The value under a name. -/
def get? (entries : Entries) (key : String) : Option Value := entries.lookup key

/-- Whether there is a value under a name. -/
def has (entries : Entries) (key : String) : Bool := (entries.get? key).isSome

/-- Replaces the value under a name where it stands, or adds it at the end. -/
def set (entries : Entries) (key : String) (v : Value) : Entries := Assoc.put entries key v

/-- After a replacement the name has the new value and every other name its old one. -/
theorem get?_set (entries : Entries) (key name : String) (v : Value) :
    (entries.set key v).get? name = if name = key then some v else entries.get? name :=
  Assoc.lookup_put entries key name v

end Entries

namespace Value

/-- The name of a value's kind, as messages use it. -/
def kindName : Value → String
  | null => "NoneType"
  | bool _ => "bool"
  | int _ => "int"
  | real _ => "float"
  | text _ => "str"
  | list _ => "list"
  | record _ => "dict"

/-- Whether a value counts as given. -/
def isTruthy : Value → Bool
  | null => false
  | bool b => b
  | int i => i != 0
  | real x => !x.isZero
  | text s => s != ""
  | list items => !items.isEmpty
  | record entries => !entries.isEmpty

/-- The text of a truth value. -/
def boolText (b : Bool) : String := if b then "True" else "False"

mutual

/-- A value as it is shown inside other values and in error reasons. -/
def shown : Value → String
  | null => "None"
  | bool b => boolText b
  | int i => toString i
  | real x => x.text
  | text s => showText s
  | list items => "[" ++ ", ".intercalate (shownItems items) ++ "]"
  | record entries => "\x7b" ++ ", ".intercalate (shownEntries entries) ++ "\x7d"

/-- The items of a list as they are shown. -/
def shownItems : List Value → List String
  | [] => []
  | v :: rest => shown v :: shownItems rest

/-- The entries of a record as they are shown. -/
def shownEntries : List (String × Value) → List String
  | [] => []
  | (k, v) :: rest => (showText k ++ ": " ++ shown v) :: shownEntries rest

end

/-- A value as plain text: a text as it is, everything else as it is shown. -/
def display : Value → String
  | text s => s
  | v => v.shown

/-- The text of a value that is one. -/
def asText? : Value → Option String
  | text s => some s
  | _ => none

/-- Whether a value is this text. -/
def isText (v : Value) (s : String) : Bool :=
  match v with
  | text t => t == s
  | _ => false

/-- Whether a value is one of these texts. -/
def isOneOf (v : Value) (options : List String) : Bool :=
  match v with
  | text t => options.contains t
  | _ => false

/-- Whether a value may be looked up in a table; lists and records may not. -/
def isKey : Value → Bool
  | list _ => false
  | record _ => false
  | _ => true

/-- A value if it counts as given, else the default. -/
def orElse (v default : Value) : Value := if v.isTruthy then v else default

end Value

end Blockscribe
