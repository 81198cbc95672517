/-
The standard handlers.

* `Handler.standardTable`: a handler for each of the thirty-nine block types of the toolbox.
* `Handler.standardSet`: the set of them. Types can be left out, which the check against
  `Handler.expectedTypes` then reports.
-/
import Blockscribe.Handler.Lists
import Blockscribe.Handler.Logic
import Blockscribe.Handler.Procedures
import Blockscribe.Handler.Variables
import Blockscribe.HandlerSet

namespace Blockscribe.Handler

/-- The standard handlers by block type. -/
def standardTable : List (String × Handler) :=
  Lists.table ++ Logic.table ++ Texts.table ++ Variables.table ++ Procedures.table

/-- The block types of the toolbox. -/
def expectedTypes : List String :=
  ["lists_create_empty", "lists_create_with", "lists_repeat", "lists_length", "lists_isEmpty",
    "lists_indexOf", "lists_getIndex", "lists_setIndex", "lists_getSublist", "lists_sort",
    "lists_split", "controls_if", "logic_compare", "logic_operation", "logic_negate",
    "logic_boolean", "logic_null", "logic_ternary", "text", "text_join", "text_append",
    "text_length", "text_isEmpty", "text_indexOf", "text_charAt", "text_getSubstring",
    "text_changeCase", "text_trim", "text_print", "text_prompt_ext", "text_prompt",
    "variables_get", "variables_set", "math_number", "math_arithmetic", "procedures_defreturn",
    "procedures_defnoreturn", "procedures_callreturn", "procedures_callnoreturn"]

/-- The standard handlers without those of some types, before the check. -/
def standardSetUnchecked (dropped : List String) : HandlerSet Handler × Option Fault :=
  HandlerSet.empty.update (standardTable.filter fun entry => !dropped.contains entry.1)
    Procedures.definers

/-- The standard handlers without those of some types. -/
def standardSet (dropped : List String) : Except Fault (HandlerSet Handler) :=
  match standardSetUnchecked dropped with
  | (_, some fault) => .error fault
  | (handlers, none) => (handlers.validate expectedTypes).map fun _ => handlers

/-- All standard handlers. -/
def standard : HandlerSet Handler := (standardSetUnchecked []).1

end Blockscribe.Handler
