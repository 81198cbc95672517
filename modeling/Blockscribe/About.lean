/-
The report on an installation.

* `Machine`: what is known about the machine, by name.
* `About`: what the report is about: the standard handlers, the settings in force, the machine.
* `About.parts`: the parts of the report, each a text or the fault that kept it from being
  written.
* `About.report`: the text up to the first fault and the exit code; a fault is reported in a last
  line and gives exit code 1.
* `written_map_ok`: parts without a fault are written in a row, and the exit code is 0.
-/
import Blockscribe.Handler.Standard
import Blockscribe.Settings.Basic

namespace Blockscribe

/-- What is known about the machine, by name. -/
abbrev Machine := Entries

namespace Machine

/-- What is known under a name. -/
def get (m : Machine) (name : String) : Except Fault Value :=
  match Entries.get? m name with
  | some v => .ok v
  | none => .error (.noKey (.text name))

/-- The words of a text, cut at blanks. -/
def words (cs : List Char) : List (List Char) :=
  (cs.splitBy fun a b => Text.isBlank a == Text.isBlank b).filter fun w => !Text.allBlank w

/-- The first word of a value that is a text. -/
def firstWord : Value → Except Fault String
  | .text s =>
    match words s.toList with
    | [] => .error (.noItem "list")
    | w :: _ => .ok (String.ofList w)
  | v => .error (.noMember v.kindName "split")

/-- The first item of a value. -/
def firstItem : Value → Except Fault String
  | .list [] => .error (.noItem "list")
  | .list (v :: _) => .ok v.display
  | .text s =>
    match s.toList with
    | [] => .error (.noItem "string")
    | c :: _ => .ok (String.singleton c)
  | .record _ => .error (.noKey (.int 0))
  | v => .error (.misuse v .collection)

end Machine

/-- What the report is about. -/
structure About where
  handlers : Except Fault Nat
  settings : Except Fault (String × Settings)
  machine : Machine

namespace About

/-- The name and version lines that every report starts with. -/
def title : String :=
  "blockgen Block Program Code Generator\n" ++ String.ofList (List.replicate 40 '=') ++ "\n"

/-- The release that the report names. -/
def release : String := "0.1.0"

/-- The lines about the handlers; only a report of the library is shown here. -/
def handlerLines : Except Fault Nat → Except Fault String
  | .ok count => .ok ("Built-in Handlers: " ++ toString count ++ "\n")
  | .error (.failure report) => .ok ("Handler Error: " ++ report.text ++ "\n")
  | .error fault => .error fault

/-- The lines about the settings; only a refusal of settings is shown here. -/
def settingsLines : Except Fault (String × Settings) → Except Fault String
  | .ok (path, s) =>
    .ok ("Configuration File: " ++ path ++ "\n" ++
      "Default Dialect: " ++ s.codegen.dialect.display ++ "\n" ++
      "One-based Indexing: " ++ s.codegen.oneBased.display ++ "\n")
  | .error (.failure (.settings flaw)) =>
    .ok ("Configuration Error: " ++ (Failure.settings flaw).text ++ "\n")
  | .error fault => .error fault

/-- The part about the program itself. -/
def programPart (a : About) : Except Fault String := do
  let handlers ← handlerLines a.handlers
  let settings ← settingsLines a.settings
  return "\nblockgen Version: " ++ release ++ "\nAuthor: blockgen Team\nDialects: " ++
    ", ".intercalate Dialect.names ++ "\n" ++ handlers ++ settings

/-- The parts of the report in order. -/
def parts (a : About) : List (Except Fault String) :=
  [.ok title,
    a.programPart,
    (a.machine.get "python_version").bind fun v =>
      (Machine.firstWord v).map fun s => "\nPython Version: " ++ s ++ "\n",
    (a.machine.get "platform").map fun v => "Platform: " ++ v.display ++ "\n",
    (a.machine.get "architecture").bind fun v =>
      (Machine.firstItem v).map fun s => "Architecture: " ++ s ++ "\n",
    (a.machine.get "yaml_version").map fun v => "PyYAML Version: " ++ v.display ++ "\n"]

/-- The texts up to the first fault, and the exit code. -/
def written : List (Except Fault String) → Nat × String
  | [] => (0, "")
  | .ok text :: rest => ((written rest).1, text ++ (written rest).2)
  | .error fault :: _ => (1, "Error getting system information: " ++ fault.text ++ "\n")

/-- The exit code and the text of the report. -/
def report (a : About) : Nat × String := written a.parts

/-- Parts without a fault are written in a row, and the exit code is 0. -/
theorem written_map_ok (texts : List String) :
    written (texts.map .ok) = (0, texts.foldr (· ++ ·) "") := by
  induction texts with
  | nil => rfl
  | cons t rest ih => simp [written, ih]

end About

end Blockscribe
