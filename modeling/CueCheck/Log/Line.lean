import CueCheck.Text.Blank

/-!
Lines of the log.
-/

namespace CueCheck

inductive LogLevel where
  | debug
  | info
  | warning
deriving DecidableEq, Repr

def LogLevel.name : LogLevel → String
  | debug => "DEBUG"
  | info => "INFO"
  | warning => "WARNING"

/-- A message with its level and the part of the service that writes it. -/
structure LogLine where
  level : LogLevel
  logger : String
  message : String
deriving DecidableEq, Repr

def LogLine.text (line : LogLine) : String :=
  s!"{line.level.name} {line.logger} {line.message}"

end CueCheck
