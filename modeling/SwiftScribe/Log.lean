/-!
# Log lines

What a run has to say beside its result.
-/

namespace SwiftScribe

/-- How urgent a log line is. -/
inductive Level where
  | debug
  | info
  | warn
  | error
deriving DecidableEq

def Level.name : Level → String
  | .debug => "debug"
  | .info => "info"
  | .warn => "warn"
  | .error => "error"

/-- **A log line.** -/
structure Log where
  level : Level
  message : String
deriving DecidableEq

end SwiftScribe
