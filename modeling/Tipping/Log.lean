/-!
Log records: a level and a text.
-/

namespace Tipping

inductive Level where
  | error | warn | info | debug | trace
  deriving DecidableEq, Repr

namespace Level

def name : Level → String
  | error => "ERROR"
  | warn => "WARN"
  | info => "INFO"
  | debug => "DEBUG"
  | trace => "TRACE"

def all : List Level := [error, warn, info, debug, trace]

/-- The level of that name, whatever the case of its ASCII letters. -/
def ofName? (s : String) : Option Level :=
  all.find? fun l => l.name.toList == s.toList.map Char.toUpper

end Level

structure LogRecord where
  level : Level
  text : String
  deriving DecidableEq, Repr

end Tipping
