/-
# Levels of log events

Five levels, from errors only to everything. An option names a level in any
mixture of upper and lower case letters.
-/

namespace TemplatePasses.Log

/-- The levels, the least verbose first. -/
inductive Level where
  | error
  | warn
  | info
  | debug
  | trace
deriving DecidableEq, Repr

namespace Level

def all : List Level :=
  [.error, .warn, .info, .debug, .trace]

/-- How much a level lets through. -/
def verbosity : Level → Nat
  | .error => 0
  | .warn => 1
  | .info => 2
  | .debug => 3
  | .trace => 4

/-- The name of a level in log lines. -/
def name : Level → String
  | .error => "ERROR"
  | .warn => "WARN"
  | .info => "INFO"
  | .debug => "DEBUG"
  | .trace => "TRACE"

def optionName : Level → String
  | .error => "error"
  | .warn => "warn"
  | .info => "info"
  | .debug => "debug"
  | .trace => "trace"

/-- The level that an option names. -/
def ofText? (text : String) : Option Level :=
  all.find? (·.optionName = text.toLower)

end Level
end TemplatePasses.Log
