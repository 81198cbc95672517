/-
Setting up the log.

* `LogSetup`: the threshold of the log and of each of its outputs.
* `LogSetup.thresholdOf`: the threshold that a level names; unknown names mean INFO.
* `LogSetup.ofLevel`, `ofSettings`: the set-up for a level, and for settings.
* `LogSetup.lines`: the lines that events leave in a log file.
* `rank_level_le`: no event is critical.
* `lines_critical`: at the highest threshold no event leaves a line.
-/
import Blockscribe.Fault
import Blockscribe.Log
import Blockscribe.Settings.Basic

namespace Blockscribe

/-- The threshold of the log and the outputs with theirs. -/
structure LogSetup where
  threshold : Nat
  outputs : List (String × Nat)
  deriving DecidableEq, Repr

namespace LogSetup

/-- The thresholds by name. -/
def thresholds : List (String × Nat) :=
  [("DEBUG", 10), ("INFO", 20), ("WARNING", 30), ("WARN", 30), ("ERROR", 40), ("CRITICAL", 50),
    ("FATAL", 50), ("NOTSET", 0)]

/-- The characters beyond ASCII whose upper-case form is in ASCII. -/
def asciiCapitals : List (Nat × String) :=
  [(0xdf, "SS"), (0x131, "I"), (0x17f, "S"), (0xfb00, "FF"), (0xfb01, "FI"), (0xfb02, "FL"),
    (0xfb03, "FFI"), (0xfb04, "FFL"), (0xfb05, "ST"), (0xfb06, "ST")]

/-- A text in upper case, as far as the result is in ASCII. -/
def capitals (s : String) : String :=
  String.join (s.toList.map fun c =>
    (asciiCapitals.lookup c.toNat).getD (String.singleton c.toUpper))

/-- The threshold that a level names. Two names denote something that is no level. -/
def thresholdOf : Value → Except Fault Nat
  | .text s =>
    match capitals s with
    | "BASIC_FORMAT" => .error (.flaw (.level "%(levelname)s:%(name)s:%(message)s"))
    | "_STYLES" => .error (.misuse (.text s) .level)
    | name => .ok ((thresholds.lookup name).getD 20)
  | v => .error (.noMember v.kindName "upper")

/-- The set-up for a level, with or without a log file. -/
def ofLevel (level : Value) (toFile : Bool) : Except Fault LogSetup :=
  (thresholdOf level).map fun n =>
    ⟨n, ("StreamHandler", n) :: if toFile then [("FileHandler", n)] else []⟩

/-- The level in force: the given one, else that of the environment, else INFO. -/
def levelIn (env : Environment) (level : Value) : Value :=
  match level with
  | .null => .text ((env.lookup Settings.levelVariable).getD "INFO")
  | v => v

/-- The set-up for settings. Only a text can name a log file. -/
def ofSettings (env : Environment) (s : LogSettings) : Except Fault LogSetup := do
  let level := levelIn env s.level
  if !s.toFile.isTruthy || !s.file.isTruthy then ofLevel level false
  else
    let setup ← ofLevel level true
    match s.file with
    | .text _ => return setup
    | v => throw (.misuse v .fileName)

/-- The least level that is logged; without a threshold of its own the log takes the usual one. -/
def effective (s : LogSetup) : Nat := if s.threshold = 0 then Level.warning.rank else s.threshold

/-- The line of a row in a log file, without its time. -/
def line (r : Row) : String := r.logger ++ " - " ++ r.level.name ++ " - " ++ r.message

/-- The lines that the events of a component leave in a log file. -/
def lines (s : LogSetup) (component : String) (events : List Event) : List String :=
  ((events.map (Event.rowFrom component)).filter fun r => s.effective ≤ r.level.rank).map line

/-- No event is critical. -/
theorem rank_level_le (e : Event) : e.level.rank ≤ 40 := by
  cases e <;> simp [Event.level, Level.rank]

/-- At the highest threshold no event leaves a line. -/
theorem lines_critical (outputs : List (String × Nat)) (component : String)
    (events : List Event) : lines ⟨50, outputs⟩ component events = [] := by
  simp only [lines, List.map_eq_nil_iff, List.filter_eq_nil_iff, List.mem_map]
  rintro r ⟨e, -, rfl⟩
  have := rank_level_le e
  simp [effective, Event.rowFrom]
  omega

end LogSetup

end Blockscribe
