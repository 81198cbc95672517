/-
Handlers of list blocks.

* `Lists.table`: the handlers by block type.
-/
import Blockscribe.Handler.Index
import Blockscribe.Text.WordChar

namespace Blockscribe.Handler.Lists

/-- A list without elements. -/
def createEmpty : Handler := fun _ _ => return .expr "[]" .atomic

/-- The expressions in the sockets that carry a word and a number, in the order of the numbers. -/
def operands (word default : String) (count : Nat) : Plan (List String) :=
  (List.range count).mapM fun i => Plan.expr (word ++ toString i) .none default

/-- A list of given elements. -/
def createWith : Handler := fun _ face => do
  let elements ← operands "ADD" "None" (face.numbered "ADD")
  return .expr ("[" ++ ", ".intercalate elements ++ "]") .atomic

/-- A list that repeats one element. -/
def repetition : Handler := fun _ _ => do
  let item ← Plan.expr "ITEM" .none "None"
  let times ← Plan.expr "NUM" .multiplicative "0"
  return .expr ("[" ++ item ++ "] * " ++ times) .multiplicative

/-- The number of elements. -/
def length : Handler := fun _ _ => do
  let items ← Plan.expr "VALUE" .none "[]"
  return .expr ("len(" ++ items ++ ")") .functionCall

/-- Whether there are no elements. -/
def isEmpty : Handler := fun _ _ => do
  let items ← Plan.expr "VALUE" .none "[]"
  return .expr ("not len(" ++ items ++ ")") .logicalNot

/-- The index of the first or last element that equals a given one. -/
def indexOf : Handler := fun site face => do
  let item ← Plan.expr "FIND" .none "[]"
  let items ← Plan.expr "VALUE" .none "''"
  let absent := if site.oneBased then " 0" else " -1"
  let whichEnd := face.field "END"
  if whichEnd.isText "FIRST" then
    let routine ← Plan.routine "first_index"
      ["def " ++ self ++ "(my_list, elem):",
        "  try: index = my_list.index(elem)" ++ (if site.oneBased then " + 1" else ""),
        "  except: index =" ++ absent,
        "  return index"]
    return .expr (routine ++ "(" ++ items ++ ", " ++ item ++ ")") .functionCall
  else if whichEnd.isText "LAST" then
    let routine ← Plan.routine "last_index"
      ["def " ++ self ++ "(my_list, elem):",
        "  try: index = len(my_list) - my_list[::-1].index(elem)" ++
          (if site.oneBased then "" else " - 1"),
        "  except: index =" ++ absent,
        "  return index"]
    return .expr (routine ++ "(" ++ items ++ ", " ++ item ++ ")") .functionCall
  else Plan.refuse face.type "find item" [("END", whichEnd)]

/-- The routine that takes a random element out of a list. -/
def removeRandom : Plan String :=
  Plan.routine "lists_remove_random_item"
    ["def " ++ self ++ "(myList):",
      "  x = int(random.random() * len(myList))",
      "  return myList.pop(x)"]

/-- Makes the module of random numbers known to the program. -/
def importRandom : Plan Unit := Plan.writeDefinition "import_random" "import random"

/-- The element at a place, read, taken out, or just removed. -/
def getIndex : Handler := fun site face => do
  let mode := (face.field "MODE").orElse (.text "GET")
  let origin := (face.field "WHERE").orElse (.text "FROM_START")
  let items ← Plan.expr "VALUE" (if origin.isText "RANDOM" then .none else .member) "[]"
  if origin.isOneOf places then
    let (index, popIndex) ←
      if origin.isText "FIRST" then pure ("0", "0")
      else if origin.isText "LAST" then pure ("-1", "")
      else if origin.isText "FROM_START" then do
        let index ← indexAt site "AT" 0 false
        pure (index, index)
      else do
        let index ← indexAt site "AT" 1 true
        pure (index, index)
    if mode.isText "GET" then return .expr (items ++ "[" ++ index ++ "]") .member
    else if mode.isText "GET_REMOVE" then
      return .expr (items ++ ".pop(" ++ popIndex ++ ")") .functionCall
    else if mode.isText "REMOVE" then return .statement (items ++ ".pop(" ++ popIndex ++ ")\n")
    else Plan.refuse face.type "get list item" [("MODE", mode), ("WHERE", origin)]
  else if origin.isText "RANDOM" then
    importRandom
    if mode.isText "GET" then return .expr ("random.choice(" ++ items ++ ")") .functionCall
    else if mode.isOneOf ["GET_REMOVE", "REMOVE"] then
      let routine ← removeRandom
      let code := routine ++ "(" ++ items ++ ")"
      if mode.isText "GET_REMOVE" then return .expr code .functionCall
      else return .statement (code ++ "\n")
    else Plan.refuse face.type "get list item" [("MODE", mode), ("WHERE", origin)]
  else Plan.refuse face.type "get list item" [("MODE", mode), ("WHERE", origin)]

/-- Sets an element at a random place, or inserts one there. A list expression that is more than
a name is evaluated once, into a variable of its own. -/
def setRandom (items value : String) (insert : Bool) : Plan Outcome := do
  importRandom
  let (assignment, items) ←
    if Text.isSimpleWord items.toList then pure ("", items)
    else do
      let list ← Plan.temporary "tmp_list"
      pure (list ++ " = " ++ items ++ "\n", list)
  let index ← Plan.temporary "tmp_x"
  let choice := index ++ " = int(random.random() * len(" ++ items ++ "))\n"
  if insert then
    return .statement
      (assignment ++ choice ++ items ++ ".insert(" ++ index ++ ", " ++ value ++ ")\n")
  else return .statement (assignment ++ choice ++ items ++ "[" ++ index ++ "] = " ++ value ++ "\n")

/-- Replaces the element at a place, or inserts one before it. -/
def setIndex : Handler := fun site face => do
  let items ← Plan.expr "LIST" .member "[]"
  let mode := (face.field "MODE").orElse (.text "GET")
  let origin := (face.field "WHERE").orElse (.text "FROM_START")
  let value ← Plan.expr "TO" .none "None"
  if origin.isOneOf places then
    let index ←
      if origin.isText "FIRST" then pure "0"
      else if origin.isText "LAST" then pure "-1"
      else if origin.isText "FROM_START" then indexAt site "AT" 0 false
      else indexAt site "AT" 1 true
    if mode.isText "SET" then
      return .statement (items ++ "[" ++ index ++ "] = " ++ value ++ "\n")
    else if mode.isText "INSERT" then
      if origin.isText "LAST" then return .statement (items ++ ".append(" ++ value ++ ")\n")
      else return .statement (items ++ ".insert(" ++ index ++ ", " ++ value ++ ")\n")
    else Plan.refuse face.type "set list item" [("MODE", mode), ("WHERE", origin)]
  else if origin.isText "RANDOM" && mode.isOneOf ["SET", "INSERT"] then
    setRandom items value (mode.isText "INSERT")
  else Plan.refuse face.type "set list item" [("MODE", mode), ("WHERE", origin)]

/-- A part of a list. -/
def getSublist : Handler := fun site face => do
  let items ← Plan.expr "LIST" .member "[]"
  slice site face "get sublist" items

/-- A sorted list. -/
def sort : Handler := fun _ face => do
  let items ← Plan.expr "LIST" .none "[]"
  match face.field "TYPE" with
  | .text order =>
    if ["NUMERIC", "TEXT", "IGNORE_CASE"].contains order then
      let reverse := if (face.field "DIRECTION").display = "1" then "False" else "True"
      let routine ← Plan.routine "lists_sort"
        ["def " ++ self ++ "(my_list, type, reverse):",
          "  def try_float(s):",
          "    try:",
          "      return float(s)",
          "    except:",
          "      return 0",
          "  key_funcs = \x7b",
          "    \"NUMERIC\": try_float,",
          "    \"TEXT\": str,",
          "    \"IGNORE_CASE\": lambda s: str(s).lower()",
          "  \x7d",
          "  key_func = key_funcs[type]",
          "  list_cpy = list(my_list)",
          "  return sorted(list_cpy, key=key_func, reverse=reverse)"]
      return .expr (routine ++ "(" ++ items ++ ", \"" ++ order ++ "\", " ++ reverse ++ ")")
        .functionCall
    else Plan.refuse face.type "sort list" [("TYPE", .text order)]
  | other => Plan.refuse face.type "sort list" [("TYPE", other)]

/-- A text split into a list, or a list joined to a text. -/
def split : Handler := fun _ face => do
  let mode := face.field "MODE"
  if mode.isText "SPLIT" then
    let text ← Plan.expr "INPUT" .member "''"
    let delimiter ← Plan.expr "DELIM" .none ""
    return .expr (text ++ ".split(" ++ delimiter ++ ")") .functionCall
  else if mode.isText "JOIN" then
    let items ← Plan.expr "INPUT" .none "[]"
    let delimiter ← Plan.expr "DELIM" .member "''"
    return .expr (delimiter ++ ".join(" ++ items ++ ")") .functionCall
  else Plan.refuse face.type "split or join" [("MODE", mode)]

/-- The handlers of list blocks. -/
def table : List (String × Handler) :=
  [("lists_create_empty", createEmpty), ("lists_create_with", createWith),
    ("lists_repeat", repetition), ("lists_length", length), ("lists_isEmpty", isEmpty),
    ("lists_indexOf", indexOf), ("lists_getIndex", getIndex), ("lists_setIndex", setIndex),
    ("lists_getSublist", getSublist), ("lists_sort", sort), ("lists_split", split)]

end Blockscribe.Handler.Lists
