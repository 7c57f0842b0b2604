import EditorInsight.Log.Moment
import EditorInsight.Server.Answer
import EditorInsight.Server.Startup
import Std.Time.DateTime

/-!
# The command line

Serves requests from standard input, one to a line: the name of a tool, a file, a line and a column,
with tabs between them. Each answer is one line of JSON. Reports go to the console and, if a folder
is given for it, to a log file.
-/

namespace EditorInsight.CommandLine

def usage : String :=
  "usage: apy-intel [-h] [--workspace WORKSPACE]\n" ++
  "                 [--transport \x7bstdio,streamable-http,sse\x7d]\n" ++
  "                 [--log-dir LOG_DIR]\n"

def help : String :=
  usage ++ "\nAPY Language Intelligence MCP Server\n\noptions:\n" ++
  "  -h, --help            show this help message and exit\n" ++
  "  --workspace WORKSPACE\n" ++
  "                        Workspace root holding .apy_intel.yml and the\n" ++
  "                        libs/tables directories. Default: current directory\n" ++
  "  --transport \x7bstdio,streamable-http,sse\x7d\n" ++
  "                        Transport type for MCP server. Default: stdio\n" ++
  "  --log-dir LOG_DIR     Directory for structured JSON log files. Default:\n" ++
  "                        console logging only\n"

def now : IO Moment := do
  let d := Std.Time.DateTime.ofTimestampWithZone (← Std.Time.Timestamp.now) Std.Time.TimeZone.UTC
  return ⟨d.year.toInt.toNat, d.month.val.toNat, d.day.val.toNat, d.hour.val.toNat,
    d.minute.val.toNat, d.second.val.toNat, d.nanosecond.val.toNat / 1000⟩

/-- Reads a folder with what is below it, down to the given depth. What cannot be read is left out. -/
def snapshot : Nat → String → IO FileNode
  | 0, _ => return .folder []
  | depth + 1, path => do
    let folder ← IO.FS.realPath path
    if !(← folder.isDir) then return .file (← IO.FS.readBinFile folder).toList
    let mut children := []
    for entry in ← folder.readDir do
      try
        children := (entry.fileName.toList, ← snapshot depth entry.path.toString) :: children
      catch _ => pure ()
    return .folder children

def maxDepth : Nat := 32

/-- The disk as it is at present, as far as the workspace goes. -/
def diskOf (workspace : Option Text) : IO Disk := do
  let current := (← IO.currentDir).toString
  let place := Path.place (Path.components current) (workspace.getD current.toList)
  let mut top := FileNode.folder []
  try
    top := top.put place (← snapshot maxDepth (Path.ofPlace place).str)
  catch _ => pure ()
  return { top, current := Path.components current }

def report (args : Arguments) (events : List LogEvent) : IO Unit := do
  let moment ← now
  for e in events do
    let record := LogRecord.ofEvent e
    IO.eprintln (record.consoleLine (moment.consoleStamp args.logFolder.isSome)).str
    if let some folder := args.logFolder.bind OptionValue.text? then
      let path := (Path.append folder (LogOutput.fileName moment.dayText)).str
      if let .ok line := record.line moment.stamp then
        IO.FS.createDirAll folder.str
        IO.FS.withFile path .append fun file => file.putStrLn line.str

/-- Reports what has gathered in a session. -/
def flush (args : Arguments) (s : Session) : IO Session := do
  report args s.log
  return { s with log := [] }

def answer (s : Session) (line : String) : Session × Value :=
  match (line.splitOn "\t").map (·.toList) with
  | [name, file, row, column] =>
    match Tool.requestKind? name, row.str.toInt?, column.str.toInt? with
    | some k, some row, some column =>
      let (s, result) := (Tool.run k ⟨file, ⟨row, column⟩, none, none⟩).runIn s
      match result with
      | .ok r => (s, k.value r)
      | .error (.failed f) => (s, .record [("error", .text f.message)])
      | .error .cancelled => (s, .null)
    | _, _, _ => (s, .record [("error", .text "unknown request")])
  | _ => (s, .record [("error", .text "unknown request")])

/-- Answers requests until there are no more; `last` is when the session was last told the time. -/
partial def requests (args : Arguments) (last : Nat) (s : Session) : IO (Session × Unit) := do
  let line ← (← IO.getStdin).getLine
  if line.isEmpty then return (s, ())
  let disk ← diskOf (args.workspace.bind OptionValue.text?)
  let time ← IO.monoMsNow
  let s := { s with disk := { disk with maxFileBytes := s.disk.maxFileBytes } }
  let s := (s.advance (.whole (time - last))).toOption.getD s
  let (s, v) := answer s (line.dropEndWhile (· == '\n')).toString
  IO.println (Json.render v).str
  requests args time (← flush args s)

def settingsFaultText : SettingsFault → Text
  | .notFolder w => "Workspace root is not a directory: " ++ w
  | .nameTooLong p => FileNotice.nameTooLong p
  | .notUtf8 => "The settings are not UTF-8"
  | .tooDeep => "The settings are nested too deeply"
  | .scalar _ => "The settings have a scalar without a value"
  | .unshowable .tooManyDigits _ => "The settings have a number that is too long to be shown"
  | .unshowable .tooDeep _ => "The settings have a value that is nested too deeply to be shown"

def startFaultText : Server.StartFault → Text
  | .log _ => "The log folder cannot be made"
  | .settings f => settingsFaultText f
  | .noLogFolder => "The log folder has no name"
  | .noWorkspace => "The workspace has no name"

def run (args : Arguments) : IO UInt32 := do
  match Server.openLog (← now).dayText args (← diskOf (args.workspace.bind OptionValue.text?)) with
  | .error f => IO.eprintln (startFaultText f).str; return 1
  | .ok (disk, opening) =>
    report args opening
    match Server.makeSession args disk with
    | .error f =>
      report args f.events
      IO.eprintln (startFaultText f).str
      return 1
    | .ok s =>
      let (s, result) ← Server.serve args.transport.display (requests args (← IO.monoMsNow)) (← flush args s)
      let _ ← flush args s
      match result with
      | .ok _ => return 0
      | .error f => IO.eprintln f.message.str; return 1

end EditorInsight.CommandLine

def main (argv : List String) : IO UInt32 := do
  match EditorInsight.Arguments.parse (argv.map (·.toList)) with
  | .ok args => EditorInsight.CommandLine.run args
  | .error .help => IO.print EditorInsight.CommandLine.help; return 0
  | .error (.refused m) =>
    IO.eprint (EditorInsight.CommandLine.usage ++ "apy-intel: error: " ++ m.str ++ "\n")
    return 2
