import EditorInsight.Text.Basic

/-!
# Log events

What the program reports while it runs: a severity, the name of the part that reports, and a
message. Severities are whole numbers, of which a few have names.
-/

namespace EditorInsight

namespace Severity

def debug : Int := 10
def info : Int := 20
def warning : Int := 30
def error : Int := 40
def critical : Int := 50

def name (level : Int) : Text :=
  if level = debug then "DEBUG"
  else if level = info then "INFO"
  else if level = warning then "WARNING"
  else if level = error then "ERROR"
  else if level = critical then "CRITICAL"
  else if level = 0 then "NOTSET"
  else "Level " ++ Text.ofInt level

end Severity

structure LogEvent where
  severity : Int
  logger : Text
  message : Text
  deriving DecidableEq

namespace LogEvent

def info (logger message : Text) : LogEvent := ⟨Severity.info, logger, message⟩

def warning (logger message : Text) : LogEvent := ⟨Severity.warning, logger, message⟩

def error (logger message : Text) : LogEvent := ⟨Severity.error, logger, message⟩

/-- Whether a user should be warned. -/
def isWarning (e : LogEvent) : Bool := Severity.warning ≤ e.severity

end LogEvent
end EditorInsight
