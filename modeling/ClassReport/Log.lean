import ClassReport.Text.Terminal

/-!
# Log lines

What a run tells about itself, in order. A line keeps its message as it is; only what a user sees is made
safe for a terminal.
-/

namespace ClassReport

/-- How much a log line matters. -/
inductive LogLevel where
  | debug
  | info
  | warn
  | error
  deriving DecidableEq, Repr

def LogLevel.label : LogLevel → String
  | .debug => "DEBUG"
  | .info => "INFO"
  | .warn => "WARN"
  | .error => "ERROR"

structure LogLine where
  level : LogLevel
  message : String
  deriving DecidableEq, Repr

/-- The lines that a run wrote, the first one first. -/
abbrev Log := List LogLine

namespace LogLine

/-- Whether a user who did not ask for more sees the line. -/
def isShown (line : LogLine) : Bool := line.level != .debug

/-- The line as a user sees it: the level on the right of five places, then the message. -/
def render (line : LogLine) : String :=
  String.ofList (List.replicate (5 - line.level.label.length) ' ') ++ line.level.label ++ " " ++
    Terminal.shown line.message ++ "\n"

end LogLine

end ClassReport
