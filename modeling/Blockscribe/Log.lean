/-
Log rows.

* `Level`: the levels of severity, in order.
* `Event`: what is worth a row; `Event.level` and `Event.message` say how it is logged.
* `Row`: a level, the name of the logger and a message.
-/
import Blockscribe.Value

namespace Blockscribe

/-- How severe a row is. -/
inductive Level
  | debug
  | info
  | warning
  | error
  | critical
  deriving DecidableEq, Repr

namespace Level

/-- The number of a level; a threshold lets through the levels that are at least as great. -/
def rank : Level → Nat
  | debug => 10
  | info => 20
  | warning => 30
  | error => 40
  | critical => 50

/-- The name of a level in rows. -/
def name : Level → String
  | debug => "DEBUG"
  | info => "INFO"
  | warning => "WARNING"
  | error => "ERROR"
  | critical => "CRITICAL"

end Level

/-- The two name spaces of identifiers. -/
inductive NameKind
  | variable
  | procedure
  deriving DecidableEq, Repr

/-- The word for a name space. -/
def NameKind.word : NameKind → String
  | .variable => "variable"
  | .procedure => "procedure"

/-- A row of the log. -/
structure Row where
  level : Level
  logger : String
  message : String
  deriving DecidableEq, Repr

/-- What is worth a row. -/
inductive Event
  | renamed (kind : NameKind) (hint identifier : String)
  | helperRegistered (key identifier : String)
  | handlersComplete (count : Nat)
  | runStarted (dialect : String) (tops declared : Int)
  | aborted (reason : String)
  | runCompleted (definitions length : Int)
  | settingsAbsent (path : String)
  | settingsUnreadable (reason : String)
  | settingsLoaded (path : String)
  | settingsSaved (path : String)
  deriving DecidableEq, Repr

namespace Event

/-- How severe an event is. -/
def level : Event → Level
  | renamed .. => .debug
  | helperRegistered .. => .debug
  | handlersComplete .. => .debug
  | settingsAbsent .. => .debug
  | runStarted .. => .info
  | runCompleted .. => .info
  | settingsLoaded .. => .info
  | settingsSaved .. => .info
  | aborted .. => .error
  | settingsUnreadable .. => .error

/-- The message of an event. -/
def message : Event → String
  | renamed kind hint identifier =>
    "Renamed " ++ kind.word ++ " '" ++ hint ++ "' to '" ++ identifier ++ "'"
  | helperRegistered key identifier =>
    "Registered helper '" ++ key ++ "' as '" ++ identifier ++ "'"
  | handlersComplete count => "Handler set complete (" ++ toString count ++ " block types)"
  | runStarted dialect tops declared =>
    "Generating " ++ dialect ++ " code for " ++ toString tops ++ " top-level blocks (" ++
      toString declared ++ " variables)"
  | aborted reason => "Code generation aborted: " ++ reason
  | runCompleted definitions length =>
    "Generated " ++ toString length ++ " characters (" ++ toString definitions ++
      " definitions)"
  | settingsAbsent path => "Configuration file " ++ path ++ " not found, using defaults"
  | settingsUnreadable reason => "Failed to load configuration: " ++ reason
  | settingsLoaded path => "Loaded configuration from " ++ path
  | settingsSaved path => "Configuration saved to " ++ path

/-- The logger of a component. -/
def loggerName (component : String) : String := "blockgen." ++ component

/-- The component that logs an event. -/
def component : Event → String
  | renamed .. => "blockgen.utils.naming"
  | helperRegistered .. => "blockgen.codegen.function_registry"
  | handlersComplete .. => "blockgen.codegen.handler_registry"
  | runStarted .. => "blockgen.codegen.generator"
  | aborted .. => "blockgen.codegen.generator"
  | runCompleted .. => "blockgen.codegen.generator"
  | settingsAbsent .. => "blockgen.utils.config"
  | settingsUnreadable .. => "blockgen.utils.config"
  | settingsLoaded .. => "blockgen.utils.config"
  | settingsSaved .. => "blockgen.utils.config"

/-- The row of an event that a named component logs. -/
def rowFrom (source : String) (e : Event) : Row := ⟨e.level, loggerName source, e.message⟩

/-- The row of an event. -/
def row (e : Event) : Row := e.rowFrom e.component

end Event

end Blockscribe
