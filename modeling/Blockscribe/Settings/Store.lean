/-
Settings files.

* `Folder`: files by path. The settings files that are used when none is named lie here too.
* `Settings.locate`: which file is used: the one that is named, or one of the two default files.
* `Settings.isYaml`: files are read and written as YAML or as JSON, by the end of their name.
* `Settings.load`, `Settings.save`: reads and writes a file, and logs it. A file that cannot be read
  counts as empty.
* `load_absent`: without a file the settings are the defaults under the environment.
-/
import Blockscribe.Json.Reader
import Blockscribe.Json.Writer
import Blockscribe.Log
import Blockscribe.Settings.Basic
import Blockscribe.Yaml.Reader
import Blockscribe.Yaml.Writer

namespace Blockscribe

/-- Files by path. -/
abbrev Folder := List (String × String)

namespace Settings

/-- The parts of a path between slashes. -/
def pathParts : List Char → List (List Char)
  | [] => [[]]
  | c :: rest =>
    if c = '/' then [] :: pathParts rest
    else
      match pathParts rest with
      | [] => [[c]]
      | part :: more => (c :: part) :: more

/-- A path without empty and idle parts. -/
def cleanPath (path : String) : String :=
  let parts := (pathParts path.toList).filter fun p => p ≠ [] ∧ p ≠ ['.']
  let body := "/".intercalate (parts.map String.ofList)
  if path.toList.head? = some '/' then "/" ++ body else if body = "" then "." else body

/-- The last part of a path. -/
def fileName (path : String) : String :=
  String.ofList ((pathParts (cleanPath path).toList).getLastD [])

/-- The end of a file's name from its last point on; a point at either end does not count. -/
def suffix (path : String) : List Char :=
  let name := (fileName path).toList
  let tail := (name.reverse.takeWhile (· ≠ '.')).reverse
  if tail.length + 1 < name.length ∧ tail ≠ [] then '.' :: tail else []

/-- Whether a file is read and written as YAML. -/
def isYaml (path : String) : Bool :=
  [".yaml".toList, ".yml".toList].contains (Text.lowercase (suffix path))

/-- The default file that is preferred. -/
def preferredFile : String := "blockgen_config.yaml"

/-- The default file that is used when the preferred one is absent. -/
def ordinaryFile : String := "blockgen_config.json"

/-- The file that is used. -/
def locate (folder : Folder) (path : Option String) : String :=
  match path with
  | some p =>
    if p ≠ "" then cleanPath p
    else if (folder.lookup preferredFile).isSome then preferredFile else ordinaryFile
  | none => if (folder.lookup preferredFile).isSome then preferredFile else ordinaryFile

/-- The data in a file; none if the file is broken. -/
def parse? (path text : String) : Option Value :=
  if isYaml path then Yaml.read? text else Json.read? text

/-- The settings in a file under the environment, and what is logged. -/
def load (folder : Folder) (env : Environment) (path : String) :
    Except Fault Settings × List Row :=
  match folder.lookup path with
  | none => (ofValue env (.record []), [(Event.settingsAbsent path).row])
  | some text =>
    match parse? path text with
    | none => (ofValue env (.record []), [(Event.settingsUnreadable "broken file").row])
    | some v => (ofValue env v, [(Event.settingsLoaded path).row])

/-- The text of a settings file. -/
def fileText (s : Settings) (path : String) : String :=
  if isYaml path then Yaml.write s.toValue else Json.indented s.toValue

/-- Writes a settings file, and what is logged. -/
def save (s : Settings) (folder : Folder) (path : String) : Folder × List Row :=
  (Assoc.put folder path (s.fileText path), [(Event.settingsSaved path).row])

/-- Without a file the settings are the defaults under the environment. -/
theorem load_absent {folder : Folder} {path : String} (h : folder.lookup path = none)
    (env : Environment) :
    load folder env path = (ofValue env (.record []), [(Event.settingsAbsent path).row]) := by
  simp [load, h]

end Settings

end Blockscribe
