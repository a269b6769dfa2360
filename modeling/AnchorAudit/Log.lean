/-! Log entries, as data. -/
namespace AnchorAudit

inductive Log.Level where
  | debug
  | info
  | warning
  | error
  deriving DecidableEq

def Log.Level.name : Log.Level → String
  | .debug => "DEBUG"
  | .info => "INFO"
  | .warning => "WARNING"
  | .error => "ERROR"

structure Log.Entry where
  level : Log.Level
  message : String
  deriving DecidableEq

/-- The messages of a component in the order in which they were written. -/
abbrev Log := List Log.Entry

namespace Log

def debug (message : String) : Entry := ⟨.debug, message⟩

def info (message : String) : Entry := ⟨.info, message⟩

def warning (message : String) : Entry := ⟨.warning, message⟩

def error (message : String) : Entry := ⟨.error, message⟩

def Entry.render (e : Entry) : String := e.level.name ++ " " ++ e.message

end Log

end AnchorAudit
