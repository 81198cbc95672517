/-
Settings.

* `CodegenSettings`, `LogSettings`, `Settings`: the two sections and the whole. Settings hold the
  values that a file or a caller gave; what may be done with them is checked where it is done.
* `CodegenSettings.check`: comments need room beside their lead, and the indent is made of blanks.
* `CodegenSettings.style`: the style that checked settings describe.
* `Settings.toValue`: the settings as data, in the form of a settings file.
* `Settings.ofValue`: the settings that a file's data and the environment describe.
* `Settings.set`: one setting of a section replaced.
* `style_of_check`: checked settings with a text for their dialect describe a style, or name a
  dialect that does not exist.
-/
import Blockscribe.Style
import Blockscribe.Text.Blank

namespace Blockscribe

/-- How programs are written. -/
structure CodegenSettings where
  dialect : Value
  oneBased : Value
  indent : Value
  commentWrap : Value

/-- What is logged and where. -/
structure LogSettings where
  level : Value
  toFile : Value
  file : Value

/-- All settings. -/
structure Settings where
  codegen : CodegenSettings
  logging : LogSettings

/-- Named texts of the environment. -/
abbrev Environment := List (String × String)

namespace CodegenSettings

/-- The settings in force where nothing is given. -/
def default : CodegenSettings :=
  ⟨.text "cplus", .bool false, .text "  ", .int 60⟩

/-- The value under a name, or a default. -/
def given (entries : Entries) (name : String) (default : Value) : Value :=
  (entries.get? name).getD default

/-- Settings from named values; what is missing has its default. -/
def ofEntries (entries : Entries) : CodegenSettings :=
  ⟨given entries "dialect" default.dialect, given entries "one_based_indexing" default.oneBased,
    given entries "indent" default.indent, given entries "comment_wrap" default.commentWrap⟩

/-- The settings as named values. -/
def toEntries (s : CodegenSettings) : Entries :=
  [("dialect", s.dialect), ("one_based_indexing", s.oneBased), ("indent", s.indent),
    ("comment_wrap", s.commentWrap)]

/-- Replaces one setting; other names change nothing. -/
def set (s : CodegenSettings) (name : String) (v : Value) : CodegenSettings :=
  match name with
  | "dialect" => { s with dialect := v }
  | "one_based_indexing" => { s with oneBased := v }
  | "indent" => { s with indent := v }
  | "comment_wrap" => { s with commentWrap := v }
  | _ => s

/-- Checks that comments have room beside their lead. -/
def checkWrap (s : CodegenSettings) : Except Fault Extent :=
  match Extent.ofValue? s.commentWrap with
  | none => .error (.misuse s.commentWrap .comparison)
  | some w =>
    if w.atMost commentAllowance then
      .error (.failure (.settings (.narrowComments commentAllowance s.commentWrap)))
    else .ok w

/-- Checks that the indent is a nonempty text of blanks. -/
def checkIndent (s : CodegenSettings) : Except Fault String :=
  if !s.indent.isTruthy then .error (.failure (.settings (.badIndent s.indent)))
  else
    match s.indent with
    | .text t =>
      if Text.allBlank t.toList then .ok t
      else .error (.failure (.settings (.badIndent s.indent)))
    | v => .error (.noMember v.kindName "strip")

/-- Refuses settings with which no program could be written. -/
def check (s : CodegenSettings) : Except Fault CodegenSettings := do
  let _ ← s.checkWrap
  let _ ← s.checkIndent
  return s

/-- The text that indents; only texts can. -/
def indentText (s : CodegenSettings) : Except Fault String :=
  match s.indent with
  | .text t => .ok t
  | v => .error (.misuse v .text)

/-- The width of comments with their lead; only numbers have one. -/
def wrapExtent (s : CodegenSettings) : Except Fault Extent :=
  match Extent.ofValue? s.commentWrap with
  | some w => .ok w
  | none => .error (.misuse s.commentWrap .number)

/-- The style that the settings describe. -/
def style (s : CodegenSettings) : Except Fault Style := do
  let dialect ← Dialect.ofValue s.dialect
  let indent ← s.indentText
  let wrap ← s.wrapExtent
  return ⟨dialect, s.oneBased.isTruthy, indent, wrap⟩

/-- Only a number passes the check on comments. -/
theorem ofValue?_of_checkWrap {s : CodegenSettings} {w : Extent} (h : s.checkWrap = .ok w) :
    Extent.ofValue? s.commentWrap = some w := by
  unfold checkWrap at h
  split at h
  · cases h
  · next hw => split at h <;> simp_all

/-- Only a text passes the check on the indent. -/
theorem eq_text_of_checkIndent {s : CodegenSettings} {t : String} (h : s.checkIndent = .ok t) :
    s.indent = .text t := by
  unfold checkIndent at h
  split at h
  · cases h
  · split at h
    · split at h <;> simp_all
    · cases h

/-- Checked settings describe a style, unless their dialect does not exist. -/
theorem style_of_check {s : CodegenSettings} {d : Dialect} (hc : s.check = .ok s)
    (hd : Dialect.ofValue s.dialect = .ok d) :
    ∃ indent wrap, s.indent = .text indent ∧
      s.style = .ok ⟨d, s.oneBased.isTruthy, indent, wrap⟩ := by
  unfold check at hc
  cases hw : s.checkWrap with
  | error e => simp [hw, bind, Except.bind] at hc
  | ok w =>
    cases ht : s.checkIndent with
    | error e => simp [hw, ht, bind, Except.bind] at hc
    | ok t =>
      have hi := eq_text_of_checkIndent ht
      have hx := ofValue?_of_checkWrap hw
      exact ⟨t, w, hi, by simp [style, hd, indentText, hi, wrapExtent, hx, bind, Except.bind, pure,
        Except.pure]⟩

end CodegenSettings

namespace LogSettings

/-- The settings in force where nothing is given. -/
def default : LogSettings := ⟨.text "INFO", .bool false, .text "blockgen.log"⟩

/-- The settings as named values. -/
def toEntries (s : LogSettings) : Entries :=
  [("level", s.level), ("enable_file_logging", s.toFile), ("log_file", s.file)]

/-- Replaces one setting; other names change nothing. -/
def set (s : LogSettings) (name : String) (v : Value) : LogSettings :=
  match name with
  | "level" => { s with level := v }
  | "enable_file_logging" => { s with toFile := v }
  | "log_file" => { s with file := v }
  | _ => s

end LogSettings

namespace Settings

/-- The variable that names the dialect. -/
def dialectVariable : String := "BLOCKGEN_DIALECT"

/-- The variable that says whether indexes start at one. -/
def oneBasedVariable : String := "BLOCKGEN_ONE_BASED_INDEXING"

/-- The variable that names the log level. -/
def levelVariable : String := "BLOCKGEN_LOG_LEVEL"

/-- The texts of the environment that mean yes, in any letter case. -/
def yesWords : List (List Char) := ["1", "true", "yes"].map String.toList

/-- A variable of the environment if it is set and not empty, else another value. -/
def nonempty (env : Environment) (name : String) (other : Value) : Value :=
  match env.lookup name with
  | some "" => other
  | some s => .text s
  | none => other

/-- The entries of a section; a missing section is empty. -/
def sectionOf (root : Value) (name : String) : Except Fault Entries :=
  match root with
  | .record entries =>
    match Entries.get? entries name with
    | none => .ok []
    | some (.record inner) => .ok inner
    | some v => .error (.noMember v.kindName "get")
  | v => .error (.noMember v.kindName "get")

/-- The section on programs, as a file's data and the environment describe it. -/
def codegenOf (env : Environment) (entries : Entries) : CodegenSettings :=
  let file := CodegenSettings.ofEntries entries
  let oneBased :=
    match env.lookup oneBasedVariable with
    | some s => yesWords.contains (Text.lowercase s.toList)
    | none => file.oneBased.isTruthy
  { file with dialect := nonempty env dialectVariable file.dialect, oneBased := .bool oneBased }

/-- The section on logging, as a file's data and the environment describe it. -/
def loggingOf (env : Environment) (entries : Entries) : LogSettings :=
  let get := CodegenSettings.given entries
  ⟨nonempty env levelVariable (get "level" LogSettings.default.level),
    get "enable_file_logging" LogSettings.default.toFile, get "log_file" LogSettings.default.file⟩

/-- The settings that a file's data and the environment describe. -/
def ofValue (env : Environment) (root : Value) : Except Fault Settings := do
  let root := root.orElse (.record [])
  let codegen ← (codegenOf env (← sectionOf root "codegen")).check
  let logging := loggingOf env (← sectionOf root "logging")
  return ⟨codegen, logging⟩

/-- The settings as data. -/
def toValue (s : Settings) : Value :=
  .record [("version", .text "1.0"), ("description", .text "blockgen configuration"),
    ("codegen", .record s.codegen.toEntries), ("logging", .record s.logging.toEntries)]

/-- Replaces one setting of a section; there are two sections. -/
def set (s : Settings) (sectionName name : String) (v : Value) : Except Fault Settings :=
  match sectionName with
  | "codegen" => .ok { s with codegen := s.codegen.set name v }
  | "logging" => .ok { s with logging := s.logging.set name v }
  | other => .error (.noMember "settings" other)

end Settings

end Blockscribe
