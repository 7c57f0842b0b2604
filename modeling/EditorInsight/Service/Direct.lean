import EditorInsight.Service.Session

/-!
# Answers straight from the disk

What a request gets when nothing is cached: the library is listed, and a module read, each time that
the inquiry asks. This is what the answers of a session are measured by.
-/

namespace EditorInsight.Session

def directAnswer (s : Session) : (q : ServiceQuestion) → Except Path.Fault q.Answer
  | .checkpoint => .ok ()
  | .imports => s.disk.probe s.library.importNames
  | .outline path => return outlineOf s.layout (← s.disk.probe (Probe.read path))
  | .file q => s.disk.probe (Dialogue.question q)

/-- The result of a request that nothing interrupts. -/
def directResult (s : Session) (k : RequestKind) (d : Document) (p : CursorPosition) :
    Except ServiceFault k.Result := do
  let result ← ((s.workspace.inquire d p k).run s.directAnswer).mapError .path
  result.mapError .request

end EditorInsight.Session
