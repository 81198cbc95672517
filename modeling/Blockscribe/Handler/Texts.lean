/-
Handlers of text blocks.

* `Texts.table`: the handlers by block type.
-/
import Blockscribe.Handler.Lists
import Blockscribe.Text.Quoted

namespace Blockscribe.Handler.Texts

/-- The method calls that change letter case. -/
def caseCalls : List (String × String) :=
  [("UPPERCASE", ".upper()"), ("LOWERCASE", ".lower()"), ("TITLECASE", ".title()")]

/-- The method calls that trim. -/
def trimCalls : List (String × String) :=
  [("LEFT", ".lstrip()"), ("RIGHT", ".rstrip()"), ("BOTH", ".strip()")]

/-- A text that is typed into the block. -/
def literal : Handler := fun _ face =>
  return .expr (quote (face.fieldOr "TEXT" (.text "")).display) .atomic

/-- The texts of all parts, one after the other. -/
def join : Handler := fun _ face => do
  match face.numbered "ADD" with
  | 0 => return .expr "''" .atomic
  | 1 =>
    let part ← Plan.expr "ADD0" .none "''"
    return .expr ("str(" ++ part ++ ")") .functionCall
  | 2 =>
    let first ← Plan.expr "ADD0" .none "''"
    let second ← Plan.expr "ADD1" .none "''"
    return .expr ("str(" ++ first ++ ") + str(" ++ second ++ ")") .additive
  | count =>
    let parts ← Lists.operands "ADD" "''" count
    let part ← Plan.temporary "x"
    return .expr
      ("''.join([str(" ++ part ++ ") for " ++ part ++ " in [" ++ ", ".intercalate parts ++ "]])")
      .functionCall

/-- The name in a field of the block, which must be a nonempty text. -/
def nameField (face : Face) (name operation : String) : Plan String :=
  match face.field name with
  | .text key => if key = "" then Plan.refuse face.type operation [(name, .text key)] else pure key
  | other => Plan.refuse face.type operation [(name, other)]

/-- Appends to a variable that holds a text. -/
def append : Handler := fun _ face => do
  let name ← Plan.variableNamed (← nameField face "VAR" "append text")
  let value ← Plan.expr "TEXT" .none "''"
  return .statement (name ++ " = str(" ++ name ++ ") + str(" ++ value ++ ")\n")

/-- The number of characters. -/
def length : Handler := fun _ _ => do
  let value ← Plan.expr "VALUE" .none "''"
  return .expr ("len(" ++ value ++ ")") .functionCall

/-- Whether there are no characters. -/
def isEmpty : Handler := fun _ _ => do
  let value ← Plan.expr "VALUE" .none "''"
  return .expr ("not len(" ++ value ++ ")") .logicalNot

/-- The index of the first or last occurrence of a text in another. -/
def indexOf : Handler := fun site face => do
  let whichEnd := face.field "END"
  if !whichEnd.isOneOf ["FIRST", "LAST"] then
    Plan.refuse face.type "find text" [("END", whichEnd)]
  else
    let method := if whichEnd.isText "FIRST" then "find" else "rfind"
    let part ← Plan.expr "FIND" .none "''"
    let value ← Plan.expr "VALUE" .member "''"
    let code := value ++ "." ++ method ++ "(" ++ part ++ ")"
    if site.oneBased then return .expr (code ++ " + 1") .additive
    else return .expr code .functionCall

/-- The character at a place. -/
def charAt : Handler := fun site face => do
  let origin := (face.field "WHERE").orElse (.text "FROM_START")
  let value ← Plan.expr "VALUE" .member "''"
  if origin.isText "FIRST" then return .expr (value ++ "[0]") .member
  else if origin.isText "LAST" then return .expr (value ++ "[-1]") .member
  else if origin.isText "FROM_START" then
    let index ← indexAt site "AT" 0 false
    return .expr (value ++ "[" ++ index ++ "]") .member
  else if origin.isText "FROM_END" then
    let index ← indexAt site "AT" 1 true
    return .expr (value ++ "[" ++ index ++ "]") .member
  else if origin.isText "RANDOM" then
    Lists.importRandom
    let routine ← Plan.routine "text_random_letter"
      ["def " ++ self ++ "(text):",
        "  x = int(random.random() * len(text))",
        "  return text[x];"]
    return .expr (routine ++ "(" ++ value ++ ")") .functionCall
  else Plan.refuse face.type "get letter" [("WHERE", origin)]

/-- A part of a text. -/
def getSubstring : Handler := fun site face => do
  let value ← Plan.expr "STRING" .member "''"
  slice site face "get substring" value

/-- A method call on a text, by the value of a field. -/
def methodCall (calls : List (String × String)) (field operation : String) : Handler :=
  fun _ face => do
    match face.field field with
    | .text key =>
      match calls.lookup key with
      | some call =>
        let value ← Plan.expr "TEXT" .member "''"
        return .expr (value ++ call) .functionCall
      | none => Plan.refuse face.type operation [(field, .text key)]
    | other =>
      if other.isKey then Plan.refuse face.type operation [(field, other)]
      else Plan.fail (.misuse other .key)

/-- Puts a message out. -/
def output : Handler := fun site _ => do
  let message ← Plan.expr "TEXT" .none "''"
  return .statement (site.dialect.outputStatement message)

/-- Asks for a text or a number. The message is typed into the block or plugged into it. -/
def prompt : Handler := fun _ face => do
  let routine ← Plan.routine "text_prompt"
    ["def " ++ self ++ "(msg):",
      "  try:",
      "    return raw_input(msg)",
      "  except NameError:",
      "    return input(msg)"]
  let message ←
    if face.hasField "TEXT" then pure (quote (face.field "TEXT").display)
    else Plan.expr "TEXT" .none "''"
  let code := routine ++ "(" ++ message ++ ")"
  match face.field "TYPE" with
  | .null => return .expr code .functionCall
  | .text "TEXT" => return .expr code .functionCall
  | .text "NUMBER" => return .expr ("float(" ++ code ++ ")") .functionCall
  | other => Plan.refuse face.type "prompt" [("TYPE", other)]

/-- The handlers of text blocks. -/
def table : List (String × Handler) :=
  [("text", literal), ("text_join", join), ("text_append", append), ("text_length", length),
    ("text_isEmpty", isEmpty), ("text_indexOf", indexOf), ("text_charAt", charAt),
    ("text_getSubstring", getSubstring),
    ("text_changeCase", methodCall caseCalls "CASE" "change case"),
    ("text_trim", methodCall trimCalls "MODE" "trim"), ("text_print", output),
    ("text_prompt_ext", prompt), ("text_prompt", prompt)]

end Blockscribe.Handler.Texts
