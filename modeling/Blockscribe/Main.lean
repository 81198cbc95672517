/-
The command that prints the report on an installation.

It takes the settings from the default files in the working directory and from the environment, and
reads what is known about the machine as a JSON record from standard input.
-/
import Blockscribe.About
import Blockscribe.Settings.Store

namespace Blockscribe.Command

/-- A file of the working directory, if it can be read. -/
def readFile? (path : String) : IO (Option (String × String)) := do
  try
    let text ← IO.FS.readFile path
    return some (path, text)
  catch _ => return none

/-- The default settings files of the working directory. -/
def readFolder : IO Folder := do
  let files ← [Settings.preferredFile, Settings.ordinaryFile].mapM readFile?
  return files.filterMap id

/-- The variables of the environment that settings look at. -/
def readEnvironment : IO Environment := do
  let names := [Settings.dialectVariable, Settings.oneBasedVariable, Settings.levelVariable]
  let found ← names.mapM fun name => do
    return (← IO.getEnv name).map fun v => (name, v)
  return found.filterMap id

/-- What is known about the machine; anything but a record tells nothing. -/
def readMachine : IO Machine := do
  let text ← (← IO.getStdin).getLine
  match Json.read? text with
  | some (.record entries) => return entries
  | _ => return []

end Blockscribe.Command

open Blockscribe in
/-- Prints the report and gives its exit code. -/
def main : IO UInt32 := do
  let folder ← Command.readFolder
  let environment ← Command.readEnvironment
  let path := Settings.locate folder none
  let settings := (Settings.load folder environment path).1.map fun s => (path, s)
  let handlers := (Handler.standardSet []).map HandlerSet.size
  let (code, text) := About.report ⟨handlers, settings, ← Command.readMachine⟩
  IO.print text
  return UInt32.ofNat code
