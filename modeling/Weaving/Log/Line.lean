/-
Log lines: a level, a message, and named texts that some messages carry.
-/
namespace Weaving

/-- How grave a log line is, gravest first. -/
inductive Level where
  /-- Something failed. -/
  | error
  /-- Something looks wrong. -/
  | warn
  /-- Something worth telling happened. -/
  | info
  /-- Something of interest to developers happened. -/
  | debug
  /-- A step was taken. -/
  | trace
  deriving DecidableEq, Inhabited

namespace Level

/-- The position of a level, counted from zero at silence: a limit shows all levels up to its own. -/
def rank : Level → Nat
  | .error => 1
  | .warn => 2
  | .info => 3
  | .debug => 4
  | .trace => 5

/-- The levels, gravest first. -/
def all : List Level := [.error, .warn, .info, .debug, .trace]

/-- The name of a level in lower case. -/
def name : Level → String
  | .error => "error"
  | .warn => "warn"
  | .info => "info"
  | .debug => "debug"
  | .trace => "trace"

/-- The name of a level in upper case. -/
def capitals : Level → String
  | .error => "ERROR"
  | .warn => "WARN"
  | .info => "INFO"
  | .debug => "DEBUG"
  | .trace => "TRACE"

end Level

/-- One log line. -/
structure LogLine where
  /-- How grave it is. -/
  level : Level
  /-- What it says. -/
  message : String
  /-- Named texts beside the message. -/
  fields : List (String × String) := []
  deriving DecidableEq

end Weaving
