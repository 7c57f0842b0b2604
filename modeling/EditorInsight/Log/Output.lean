import EditorInsight.Files.Write
import EditorInsight.Log.Record

/-!
# Where records go

Records go to a file of the day in a log folder and, if wanted, to a console. A record is written if
it is severe enough; the part that watches files is held to at least the severity of information.
-/

namespace EditorInsight

structure LogOutput where
  folder : Text
  /-- The least severity that is written. -/
  level : Int := Severity.info
  hasConsole : Bool := true

namespace LogOutput

/-- The folder for logs in the current directory. -/
def folderName : Text := ".apy_intel_logs"

def fileName (day : Text) : Text := "apy_intel_" ++ day ++ ".log"

/-- The name of the logger above all others. -/
def rootName : Text := "root"

/-- The logger of a given name; without a name it is the one above all others. -/
def loggerName (name : Option Text) : Text :=
  match name with
  | none => rootName
  | some [] => rootName
  | some t => t

def noisyLogger : Text := "watchdog"

/-- The least severity of the parts that report too much. -/
def noisyLevel (o : LogOutput) : Int := max o.level Severity.info

/-- The least severity of a logger. -/
def threshold (o : LogOutput) (logger : Text) : Int :=
  if logger = noisyLogger || (noisyLogger ++ ['.']).isPrefixOf logger then o.noisyLevel else o.level

/-- Whether a record is written. Nothing without a positive severity is. -/
def accepts (o : LogOutput) (r : LogRecord) : Bool :=
  0 < r.severity && o.threshold r.logger ≤ r.severity

/-- The severities that the file and the console ask for. -/
def levels (o : LogOutput) : List Int := o.level :: if o.hasConsole then [o.level] else []

structure Written where
  disk : Disk
  console : Text := []

def write (o : LogOutput) (day time : Text) (w : Written) (r : LogRecord) :
    Except LogRecord.Fault Written := do
  if o.accepts r then
    let line ← r.line time
    let disk := w.disk.appendText (Path.append o.folder (fileName day)) (line ++ ['\n'])
    return ⟨disk, if o.hasConsole then w.console ++ r.consoleLine time ++ ['\n'] else w.console⟩
  else return w

/-- The first thing that is reported. -/
def greeting (folder : Text) : LogEvent :=
  .info rootName ("Logging initialized. Log directory: " ++ folder)

/-- Makes the log folder and an empty log file. -/
def openOn (o : LogOutput) (day : Text) (disk : Disk) : Except FolderFault Disk := do
  let disk ← disk.makeFolder o.folder
  return disk.appendText (Path.append o.folder (fileName day)) []

end LogOutput
end EditorInsight
