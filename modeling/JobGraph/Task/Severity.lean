import JobGraph.Text.Blank
import JobGraph.Text.LowerCase

/-!
# Severities

The severity of a log message.  Users write it in any case and with blanks around it, and may
shorten `warning`; data holds the exact lower case name.
-/

namespace JobGraph

/-- The severity of a log message. -/
inductive Severity where
  | debug
  | info
  | warning
  | error
  | critical
  deriving DecidableEq, Repr

namespace Severity

instance : Inhabited Severity := ⟨.info⟩

def all : List Severity := [.debug, .info, .warning, .error, .critical]

def name : Severity → String
  | .debug => "debug"
  | .info => "info"
  | .warning => "warning"
  | .error => "error"
  | .critical => "critical"

def ofName? (name : String) : Option Severity := all.find? fun severity => severity.name == name

theorem ofName?_name (severity : Severity) : ofName? severity.name = some severity := by
  cases severity <;> rfl

/-- The severity that a user wrote, or else the word as it was understood. -/
def parse (text : String) : Except String Severity :=
  let word := Text.lower (Text.trim text)
  if word = "warn" then .ok .warning
  else
    match ofName? word with
    | some severity => .ok severity
    | none => .error word

/-- What a user is told about a word that is no severity. -/
def unknownMessage (word : String) : String :=
  s!"invalid severity: {word} (expected debug, info, warning, error or critical)"

end Severity

end JobGraph
