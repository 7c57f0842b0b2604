import EditorInsight.Service.Session

/-!
# Running an inquiry in a session

While a request runs, it may be cancelled, and the world around it may change: a document gets a new
version, library files are edited, the disk fails. A turn holds what belongs to one request: the
checkpoint from which it counts as cancelled, the incident that is to happen during it, and the
questions that it has put to the disk. An interrupted turn leaves what it had done to the session.
-/

namespace EditorInsight

inductive FileAction where
  | read
  | list
  | present
  deriving DecidableEq

def FileQuestion.action : FileQuestion → FileAction
  | .read _ => .read
  | .list _ => .list
  | .present _ => .present

/-- Something that happens while a request runs. -/
inductive Deed where
  | cancel
  | updateDocument (uri : Text) (version : Int)
  | changeLibrary (path : Option Text)
  | failDisk (message : Text)
  deriving DecidableEq

/-- A deed that is done right after the `nth` question of a kind has been put to the disk. -/
structure Incident where
  after : FileAction
  nth : Int := 1
  deed : Deed
  deriving DecidableEq

structure Turn where
  /-- The checkpoint from which the request counts as cancelled. -/
  cancelFrom : Option Nat := none
  /-- The number of checkpoints passed. -/
  checkpoints : Nat := 0
  incident : Option Incident := none
  /-- The questions put to the disk, in order. -/
  asked : List FileQuestion := []

/-- Why a turn ends early. -/
inductive Interruption where
  | cancelled
  | failed (fault : ServiceFault)

structure Running where
  session : Session
  turn : Turn := {}

/-- A step of a running request. What it did before an interruption stays done. -/
abbrev Act := ExceptT Interruption (StateM Running)

namespace Act

def fail {α : Type} (f : ServiceFault) : Act α := throw (.failed f)

def session : Act Session := return (← get).session

def modifySession (f : Session → Session) : Act Unit :=
  modify fun r => { r with session := f r.session }

def modifyTurn (f : Turn → Turn) : Act Unit := modify fun r => { r with turn := f r.turn }

/-- Passes a checkpoint, where a cancelled request ends. -/
def checkpoint : Act Unit := do
  let t := (← get).turn
  modifyTurn fun t => { t with checkpoints := t.checkpoints + 1 }
  if t.cancelFrom.any (· ≤ t.checkpoints) then throw .cancelled

/-- Drops what is cached about a changed module. -/
def libraryChanged (path : Option Text) : Act Unit := do
  let (s, fault) := (← session).libraryChanged path
  modifySession fun _ => s
  match fault with
  | some f => fail (.path f)
  | none => return

/-- The request counts as cancelled from the next checkpoint on, if it does not already. -/
def cancel : Act Unit :=
  modifyTurn fun t => { t with cancelFrom := some (min (t.cancelFrom.getD t.checkpoints) t.checkpoints) }

def perform : Deed → Act Unit
  | .cancel => cancel
  | .updateDocument uri version => modifySession (·.updateDocument uri version)
  | .changeLibrary path => libraryChanged path
  | .failDisk message => fail (.disk message)

/-- Does what is to happen after the question just asked. -/
def meetIncident (action : FileAction) : Act Unit := do
  let t := (← get).turn
  match t.incident with
  | none => return
  | some i =>
    if i.after = action && i.nth = (t.asked.filter fun q => q.action = action).length then
      perform i.deed

/-- Puts a question to the disk. -/
def askDisk (q : FileQuestion) : Act q.Answer := do
  modifyTurn fun t => { t with asked := t.asked ++ [q] }
  match (← session).disk.reply q with
  | .error f => fail (.path f)
  | .ok (answer, notices) =>
    modifySession fun s => s.note (notices.map fun n => .warning Session.fileLogger n.message)
    meetIncident q.action
    return answer

/-- The importable names, from the cache or from the disk. -/
def imports : Act (List Text) := do
  let s ← session
  match s.imports.lookup s.configuration.workspace s.clock with
  | .error f => fail (.clock f)
  | .ok (.hit names cache) =>
    modifySession fun s => { s with imports := cache }
    return names
  | .ok (.load ticket) =>
    let names ← s.library.importNames.run askDisk
    modifySession fun s => { s with imports := s.imports.settle ticket names }
    return names

/-- The outline of a module, from the cache or from the disk. A request that is cancelled while the
module is read leaves no outline behind. -/
def outline (path : Text) : Act Outline := do
  checkpoint
  let s ← session
  match s.moduleKey path with
  | .error f => fail (.path f)
  | .ok key =>
    match s.outlines.lookup key s.clock with
    | .error f => fail (.clock f)
    | .ok (.hit o cache) =>
      modifySession fun s => { s with outlines := cache }
      return o
    | .ok (.load ticket) =>
      let text ← askDisk (.read path)
      checkpoint
      let o := Session.outlineOf s.layout text
      modifySession fun s => { s with outlines := s.outlines.settle ticket o }
      return o

/-- How a session answers the questions of an inquiry. -/
def answer : (q : ServiceQuestion) → Act q.Answer
  | .checkpoint => checkpoint
  | .imports => imports
  | .outline path => outline path
  | .file q => askDisk q

/-- The result of an action, or the given one if the action is cancelled. -/
def unlessCancelled {α : Type} (empty : α) (act : Act α) : Act α :=
  tryCatch act fun
    | .cancelled => return empty
    | .failed f => fail f

/-- Answers a request. A cancelled request, and one on a document of which another version is the
latest by then, gets the result that says nothing. -/
def request (k : RequestKind) (d : Document) (p : CursorPosition) : Act k.Result := do
  let compute : Act (Option k.Result) := do
    checkpoint
    match ← ((← session).workspace.inquire d p k).run answer with
    | .ok result => return some result
    | .error f => fail (.request f)
  match ← unlessCancelled none compute with
  | some result => return if (← session).isCurrent d.uri d.version then result else k.nothing
  | none => return k.nothing

def deepImports (text : Text) : Act (List Text) := do
  let names ← imports
  ((← session).library.deepImports text names).run askDisk

/-- A document with the given text, or with that of its file. Without a version it has the latest one
that is known. -/
def readDocument (path : Text) (text : Option Text) (version : Option Int) : Act (Option Document) := do
  let text ← match text with
    | some t => pure (some t)
    | none => askDisk (.read path)
  match text with
  | none => return none
  | some t =>
    let known := (← session).versions.get? path
    return some ⟨path, t, version.getD (known.getD 0)⟩

/-- Runs an action on a session in a turn of its own. -/
def runIn {α : Type} (act : Act α) (s : Session) (t : Turn := {}) : Session × Except Interruption α :=
  let (result, r) := act.run.run { session := s, turn := t }
  (r.session, result)

end Act
end EditorInsight
