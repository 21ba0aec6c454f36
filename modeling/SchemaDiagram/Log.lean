
namespace SchemaDiagram

namespace Log

inductive Level where
  | debug
  | info
  | warning
  deriving DecidableEq, Repr

def Level.name : Level → String
  | .debug => "DEBUG"
  | .info => "INFO"
  | .warning => "WARNING"

structure Entry where
  level : Level
  topic : String
  message : String
  thread : String := "MainThread"
  deriving DecidableEq, Repr

end Log

abbrev Logs := List Log.Entry

end SchemaDiagram
