import ImageScoring.Settings.Choice
import ImageScoring.Settings.Environment

/-!
# Log settings

Which log lines are written, in which form, and to which file beside the error output. A filter
that is set explicitly wins over every variable; one that a variable sets wins over a level.
-/

namespace ImageScoring

/-- How grave a log line is. -/
inductive LogLevel where
  | error
  | warn
  | info
  | debug
  | trace
  deriving DecidableEq, Repr

namespace LogLevel

/-- The name of a level. -/
def text : LogLevel → String
  | .error => "ERROR"
  | .warn => "WARN"
  | .info => "INFO"
  | .debug => "DEBUG"
  | .trace => "TRACE"

/-- The words for a level. -/
def words : List (String × LogLevel) :=
  [("error", .error), ("warn", .warn), ("warning", .warn), ("info", .info), ("debug", .debug),
    ("trace", .trace)]

/-- The level that a text names, in any case. -/
def parse? (text : String) : Option LogLevel :=
  Text.keyword? words text

end LogLevel

/-- The log settings. -/
structure Logging where
  level : LogLevel := .warn
  format : LogFormat := .compact
  file : Option String := none
  /-- Directives that say for each part of the program which lines are written. -/
  filter : Option String := none
  showTarget : Bool := true
  deriving DecidableEq, Repr

namespace Logging

/-- A change of one log setting. -/
inductive Change where
  | level (level : LogLevel)
  | format (format : LogFormat)
  | file (path : String)
  | filter (directives : String)
  deriving DecidableEq, Repr

/-- The settings after a change. -/
def apply (l : Logging) : Change → Logging
  | .level level => { l with level := level }
  | .format format => { l with format := format }
  | .file path => { l with file := some path }
  | .filter directives => { l with filter := some directives }

/-- The settings after a sequence of changes. -/
def applyAll (l : Logging) (changes : List Change) : Logging :=
  changes.foldl apply l

/-- The filter in force: the one that is set, else the program's own variable, else the general
one. -/
def filterUnder (env : Environment) (l : Logging) : Option String :=
  (l.filter.or (env.text? "IJEXEC_LOG")).or (env.text? "RUST_LOG")

/-- The level in force: a variable sets it only where no filter is in force. -/
def levelUnder (env : Environment) (l : Logging) : LogLevel :=
  match l.filterUnder env with
  | some _ => l.level
  | none => ((env.text? "IJEXEC_LOG_LEVEL").bind LogLevel.parse?).getD l.level

/-- The settings with the environment's in their place. -/
def override (env : Environment) (l : Logging) : Logging where
  level := l.levelUnder env
  format := (env.parsed? LogFormat.choice.parse "IJEXEC_LOG_FORMAT").getD l.format
  file := (env.text? "IJEXEC_LOG_FILE").or l.file
  filter := l.filterUnder env
  showTarget := l.showTarget

end Logging

end ImageScoring
