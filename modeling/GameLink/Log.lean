/-! # Log records

What the library tells an operator: a level, a message and named fields already
rendered as text. A capture keeps every record and answers questions about
them.
-/
namespace GameLink

namespace Log

/-- From the most severe to the least. -/
inductive Level
  | error
  | warn
  | info
  | debug
  | trace
deriving DecidableEq, Inhabited

def Level.rank : Level → Nat
  | .error => 0
  | .warn => 1
  | .info => 2
  | .debug => 3
  | .trace => 4

def Level.name : Level → String
  | .error => "ERROR"
  | .warn => "WARN"
  | .info => "INFO"
  | .debug => "DEBUG"
  | .trace => "TRACE"

/-- The level with a name, in any mix of upper and lower case. -/
def Level.ofName? (name : String) : Option Level :=
  [error, warn, info, debug, trace].find? (fun l => l.name == name.toUpper)

/-- Whether a record of level `l` is kept where `limit` is asked for. -/
def Level.within (l limit : Level) : Bool := l.rank ≤ limit.rank

/-- A record with its fields in the order given. -/
structure Entry where
  level : Level
  message : String
  fields : List (String × String)
deriving DecidableEq, Inhabited

def warn (message : String) (fields : List (String × String)) : Entry := ⟨.warn, message, fields⟩
def info (message : String) (fields : List (String × String)) : Entry := ⟨.info, message, fields⟩
def debug (message : String) (fields : List (String × String)) : Entry := ⟨.debug, message, fields⟩
def trace (message : String) (fields : List (String × String)) : Entry := ⟨.trace, message, fields⟩

end Log

end GameLink
