/-! Lines of the program's log. -/
namespace ConfigModules

inductive LogLevel where
  | debug
  | info
  | warn
deriving DecidableEq, Repr

def LogLevel.name : LogLevel → String
  | .debug => "DEBUG"
  | .info => "INFO"
  | .warn => "WARN"

structure LogLine where
  level : LogLevel
  text : String
deriving DecidableEq, Repr

/-- The lines that are shown: those for finding faults only if asked. -/
def shownLines (verbose : Bool) (lines : List LogLine) : List LogLine :=
  lines.filter fun line => verbose || line.level ≠ .debug

end ConfigModules
