import EditorInsight.Log.Event
import EditorInsight.Json.Render

/-!
# Log records

One line of a structured log: a JSON object with the time, the severity, the part that reports, the
message and the thread, then the exception if there is one. A record may carry further fields; one
with the name of a standing field takes its place.
-/

namespace EditorInsight

structure LogRecord where
  severity : Int := Severity.info
  logger : Text
  message : Text
  thread : Option Text := some "MainThread"
  exception : Option Text := none
  /-- Further fields, as a mapping or as a list of pairs. -/
  fields : Option Value := none

namespace LogRecord

inductive Fault where
  | notFields
  | badPair (index length : Nat)
  deriving DecidableEq

def Fault.message : Fault → Text
  | .notFields => "the further fields are no fields"
  | .badPair index length =>
    "dictionary update sequence element #" ++ Text.ofNat index ++ " has length " ++
      Text.ofNat length ++ "; 2 is required"

def pair (index : Nat) : Value → Except Fault (Value × Value)
  | .list [k, v] => if k.isHashable then .ok (k, v) else .error .notFields
  | .text [k, v] => .ok (.text [k], .text [v])
  | .list items => .error (.badPair index items.length)
  | .text t => .error (.badPair index t.length)
  | .map [k, v] => .ok (k.1, v.1)
  | .map entries => .error (.badPair index entries.length)
  | _ => .error .notFields

def pairs (index : Nat) : List Value → Except Fault (List (Value × Value))
  | [] => .ok []
  | v :: r => do return (← pair index v) :: (← pairs (index + 1) r)

def furtherFields : Value → Except Fault (List (Value × Value))
  | .map entries => .ok entries
  | .list items => pairs 0 items
  | .text t => pairs 0 (t.map fun c => .text [c])
  | _ => .error .notFields

/-- How an exception is shown: its kind, and its message if it has one. -/
def exceptionText (kind message : Text) : Text :=
  if message = [] then kind else kind ++ ": " ++ message

/-- The fields of a record that has been made at the given time. -/
def allFields (time : Text) (r : LogRecord) : Except Fault (List (Value × Value)) := do
  let standing : List (Value × Value) :=
    [(.text "timestamp", .text time), (.text "level", .text (Severity.name r.severity)),
      (.text "logger", .text r.logger), (.text "message", .text r.message),
      (.text "thread", (r.thread.map Value.text).getD .null)] ++
    (r.exception.map fun e => (Value.text "exception", Value.text e)).toList
  let further ← match r.fields with
    | none => pure []
    | some v => furtherFields v
  return further.foldl (fun es e => Value.putEntry e.1 e.2 es) standing

/-- The line of a record that has been made at the given time. -/
def line (time : Text) (r : LogRecord) : Except Fault Text := do
  return Json.render (.map (← r.allFields time))

/-- The line of a record on a console. -/
def consoleLine (time : Text) (r : LogRecord) : Text :=
  Text.join " - " [time, r.logger, Severity.name r.severity, r.message]

def ofEvent (e : LogEvent) : LogRecord :=
  { severity := e.severity, logger := e.logger, message := e.message }

end LogRecord
end EditorInsight
