/-
# Log records

What the parts of a link report while they work.  A record is written by the part that it is
about (`Reception.Report`, `Command.LineBuffer`, `Command.Registry`, `Command.Router`,
`Command.Request`); this module only says what a record is: the level, the target and the text
that the program's `trace!` to `error!` hand to its logger.
-/

namespace SerialLink

/-- How much a record matters, from the detail of one byte to a loss of data. -/
inductive Level where
  | trace
  | debug
  | info
  | warn
  | error
  deriving DecidableEq, Repr

/-- The name of a level in the log. -/
def Level.name : Level → String
  | trace => "TRACE"
  | debug => "DEBUG"
  | info => "INFO"
  | warn => "WARN"
  | error => "ERROR"

/-- One line of the log. -/
structure Record where
  level : Level
  /-- The part of the program that speaks. -/
  target : String
  message : String
  deriving DecidableEq, Repr

end SerialLink
