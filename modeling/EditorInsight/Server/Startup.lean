import EditorInsight.Ambient.Bundled
import EditorInsight.Log.Output
import EditorInsight.Server.Arguments
import EditorInsight.Server.Tool

/-!
# The course of the server

The server first opens its log, if it is to have one, then loads its settings, makes a session, and
serves until its transport ends. However the transport ends, the session is shut down.
-/

namespace EditorInsight.Server

def name : Text := "apy-language-intelligence"

def logger : Text := "apy_intel.mcp_server"

inductive StartFault where
  | log (fault : FolderFault)
  | settings (fault : SettingsFault)
  /-- The value of the log folder was dropped. -/
  | noLogFolder
  /-- The value of the workspace was dropped. -/
  | noWorkspace
  deriving DecidableEq

/-- What is reported before the fault. -/
def StartFault.events : StartFault → List LogEvent
  | settings f => f.notices.map SettingsNotice.event
  | _ => []

/-- Opens the log that the arguments ask for. -/
def openLog (day : Text) (args : Arguments) (disk : Disk) :
    Except StartFault (Disk × List LogEvent) :=
  match args.logFolder with
  | none => .ok (disk, [])
  | some .dropped => .error .noLogFolder
  | some (.text folder) => do
    let disk ← (LogOutput.openOn { folder := folder } day disk).mapError .log
    return (disk, [LogOutput.greeting folder])

/-- What is reported before serving starts. -/
def introduction (workspace : Text) : List LogEvent :=
  [.info logger ("MCP tools registered: " ++ Text.join ", " Tool.names),
    .info logger "APYLanguageMCPServer initialized",
    .info logger ("Starting MCP server for workspace " ++ workspace)]

/-- Makes a session for the workspace of the arguments. -/
def makeSession (args : Arguments) (disk : Disk) : Except StartFault Session := do
  let workspace ← match args.workspace with
    | none => pure none
    | some .dropped => throw .noWorkspace
    | some (.text w) => pure (some w)
  let (c, notices) ← (Configuration.load disk none workspace).mapError .settings
  let s := Session.start c .bundled disk
  return { s with log := notices.map SettingsNotice.event ++ s.log ++ introduction c.workspace }

/-- Serves until the transport ends, which is given as what it does with the session. The session
stays as it is if its library cannot be watched. -/
def serve {m : Type → Type} [Monad m] {α : Type} (transport : Text) (run : Session → m (Session × α))
    (s : Session) : m (Session × Except ServiceFault α) :=
  match s.startWatching with
  | .error f => return (s, .error f)
  | .ok s => do
    let started := LogEvent.info logger ("Starting MCP server with " ++ transport ++ " transport")
    let (s, a) ← run (s.note [started])
    return ((s.note [.info logger "Shutting down MCP server"]).shutDown, .ok a)

end EditorInsight.Server
