import JobGraph.Json.Printer
import JobGraph.Run.Event
import JobGraph.Text.Blank
import JobGraph.Text.LowerCase

/-!
# Levels of the log

A level lets through the lines of its own severity and of all graver ones.
-/

namespace JobGraph

/-- A level of the log, from the gravest on. -/
inductive LogLevel where
  | error
  | warn
  | info
  | debug
  | trace
  deriving DecidableEq, Repr

namespace LogLevel

def all : List LogLevel := [.error, .warn, .info, .debug, .trace]

/-- The name of a level on the command line. -/
def name : LogLevel → String
  | .error => "error"
  | .warn => "warn"
  | .info => "info"
  | .debug => "debug"
  | .trace => "trace"

/-- The name of a level in diagnostics. -/
def label : LogLevel → String
  | .error => "Error"
  | .warn => "Warn"
  | .info => "Info"
  | .debug => "Debug"
  | .trace => "Trace"

/-- The name of a level in the log. -/
def mark : LogLevel → String
  | .error => "ERROR"
  | .warn => "WARN"
  | .info => "INFO"
  | .debug => "DEBUG"
  | .trace => "TRACE"

def rank : LogLevel → Nat
  | .error => 0
  | .warn => 1
  | .info => 2
  | .debug => 3
  | .trace => 4

def ofName? (name : String) : Option LogLevel := all.find? fun level => level.name == name

/-- The level that a setting from outside names: blanks and case do not count. -/
def ofSetting? (text : String) : Option LogLevel :=
  let word := Text.lower (Text.trim text)
  if word = "warning" then some .warn else ofName? word

/-- The level at which a line of a task's log appears. -/
def ofSeverity : Severity → LogLevel
  | .debug => .debug
  | .info => .info
  | .warning => .warn
  | .error | .critical => .error

def shows (level : LogLevel) (line : LogLine) : Bool := (ofSeverity line.severity).rank ≤ level.rank

end LogLevel

/-- A character of a message as the log shows it: those that steer a terminal by their codes. -/
def LogLine.shownChar (c : Char) : List Char :=
  let code := c.toNat
  let digits := [Json.hexDigit (code / 16), Json.hexDigit code]
  if code = 0x1b || code = 0x07 || code = 0x08 || code = 0x0c || code = 0x7f then
    ['\\', 'x'] ++ digits
  else if 0x80 ≤ code && code ≤ 0x9f then
    ['\\', 'u', '{'] ++ digits ++ ['}']
  else [c]

/-- A line of a task's log as the log shows it. -/
def LogLine.text (line : LogLine) : String :=
  (LogLevel.ofSeverity line.severity).mark ++ " "
    ++ String.ofList (line.message.toList.flatMap LogLine.shownChar) ++ " task=" ++ line.task

end JobGraph
