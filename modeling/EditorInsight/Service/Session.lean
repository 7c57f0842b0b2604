import EditorInsight.Cache.Slot
import EditorInsight.Log.Event
import EditorInsight.Service.Inquiry
import EditorInsight.Settings.Load
import EditorInsight.Watch.Watcher

/-!
# Sessions

A session is the state of a running service: the disk and the clock that it sees, its two caches,
the versions of open documents, and its watcher. Outlines are cached by the canonical path of their
module, the importable names by the workspace.
-/

namespace EditorInsight

/-- Who listens to a watcher: the session itself, or someone else. -/
inductive Listener where
  | session
  | other (number : Nat)
  deriving DecidableEq

inductive ServiceFault where
  | path (fault : Path.Fault)
  | request (fault : RequestFault)
  /-- The disk failed while it answered, or its watcher refused to start. -/
  | disk (message : Text)
  | nameTooLong (path : Text)
  | unreadable (file : Text)
  | clock (fault : Quantity.Fault)
  deriving DecidableEq

def ServiceFault.message : ServiceFault → Text
  | .path f => f.message
  | .request (.uri f) => f.message
  | .request (.parameter f) => f.message
  | .disk message => message
  | .nameTooLong p => FileNotice.nameTooLong p
  | .unreadable file => "Cannot read document: " ++ file
  | .clock f => f.message

structure Session where
  configuration : Configuration
  schema : Schema
  disk : Disk
  clock : Quantity := .whole 0
  outlines : KeyedCache Outline := {}
  imports : SlotCache := {}
  /-- The latest known version of each open document. -/
  versions : OrderedMap Text Int := {}
  watcher : Option (Watcher Listener) := none
  log : List LogEvent := []

namespace Session

def logger : Text := "apy_intel.service"

def watchLogger : Text := "apy_intel.file_watcher"

def fileLogger : Text := "apy_intel.filesystem"

/-- A session with empty caches. -/
def start (c : Configuration) (schema : Schema) (disk : Disk) : Session where
  configuration := c
  schema := schema
  disk := { disk with maxFileBytes := c.settings.maxFileSize }
  outlines := { ttl := .whole c.settings.moduleIndexTtl }
  imports := { ttl := .whole c.settings.importListTtl }
  log := [.info logger ("LanguageService initialized with libs_root=" ++ c.libsRoot ++
    ", tables_root=" ++ c.tablesRoot)]

def note (s : Session) (events : List LogEvent) : Session := { s with log := s.log ++ events }

def library (s : Session) : Library :=
  ⟨s.configuration.libsRoot, s.configuration.moduleExtensions⟩

def workspace (s : Session) : Workspace := ⟨s.library, s.configuration.tablesRoot, s.schema⟩

def layout (s : Session) : Outline.Layout :=
  ⟨s.configuration.settings.classBodyIndent, s.configuration.settings.maxDefLines⟩

/-- The outline of a module text; an unreadable module declares nothing. -/
def outlineOf (layout : Outline.Layout) : Option Text → Outline
  | none => {}
  | some text => Outline.ofText layout text

/-- The key of a module in the cache. -/
def moduleKey (s : Session) (path : Text) : Except Path.Fault Text :=
  Path.canonical s.disk.current path

def advance (s : Session) (milliseconds : Quantity) : Except Quantity.Fault Session := do
  return { s with clock := ← s.clock.add milliseconds }

/-! Documents. -/

/-- Records a version unless a later one is known. -/
def updateDocument (s : Session) (uri : Text) (version : Int) : Session :=
  match s.versions.get? uri with
  | some known => if known ≤ version then { s with versions := s.versions.put uri version } else s
  | none => { s with versions := s.versions.put uri version }

def closeDocument (s : Session) (uri : Text) : Session :=
  { s with versions := s.versions.erase uri }

/-- Whether no other version of the document is the latest one. -/
def isCurrent (s : Session) (uri : Text) (version : Int) : Bool :=
  match s.versions.get? uri with
  | none => true
  | some known => known = version

/-! Changes of the library. -/

/-- Drops what the caches know about a module, or about all modules if none is named. The importable
names are dropped first, even if the path is then refused. -/
def libraryChanged (s : Session) (path : Option Text) : Session × Option Path.Fault :=
  let s := { s with imports := s.imports.invalidate none }
  match path.filter (!·.isEmpty) with
  | none => ({ s with outlines := s.outlines.invalidate none }, none)
  | some p =>
    match s.moduleKey p with
    | .ok key => ({ s with outlines := s.outlines.invalidate (some key) }, none)
    | .error f => (s, some f)

/-- How a session answers a report of its watcher. -/
def hear (listener : Listener) (path : Text) (s : Session) : Session × Option Text :=
  match listener with
  | .session =>
    let (s, fault) := s.libraryChanged (some path)
    (s, fault.map Path.Fault.message)
  | .other _ => (s, none)

def listeners (s : Session) : List Listener := (s.watcher.map Watcher.listeners).getD []

/-- Hands an event to the listeners of the watcher, whether it is running or not, where `call` says what
each of them does; what was handed out is told, and failures are noted. -/
def handOut (call : Listener → Text → Session → Session × Option Text) (s : Session) (e : FileEvent) :
    Session × List (Delivery Listener) :=
  match s.watcher with
  | none => (s, [])
  | some w =>
    let (s, deliveries) := Watcher.deliver listeners call (w.reports e) s
    (s.note (deliveries.filterMap fun d => d.complaint?.map (LogEvent.error watchLogger)), deliveries)

/-- Delivers an event where nobody but the session does anything about it. -/
def deliverEvent (s : Session) (e : FileEvent) : Session := (s.handOut hear e).1

/-- A new watcher of the library, unless there is no library to watch. -/
def makeWatcher (s : Session) : Except ServiceFault (Session × Option (Watcher Listener)) :=
  let root := s.library.root
  match s.disk.arrive root with
  | .tooLong => .error (.nameTooLong root)
  | _ =>
    if s.disk.isFolder root then do
      let top ← (Path.canonical s.disk.current root).mapError .path
      let s := s.note [.info watchLogger ("LibraryWatcher initialized for " ++ top)]
      return (s, some { root := top, extensions := s.library.extensions })
    else return (s.note [.info logger ("Libs root " ++ root ++ " does not exist, not watching")], none)

/-- Listens to the watcher and starts it unless it is running. -/
def takeUp (s : Session) (w : Watcher Listener) : Except ServiceFault Session :=
  let w := w.register .session
  if w.isRunning then .ok { s with watcher := some w }
  else match w.start? with
    | none => .error (.disk Watcher.alreadyRunning)
    | some w => .ok ({ s with watcher := some w }.note
        [.info watchLogger ("LibraryWatcher started, monitoring " ++ w.root)])

/-- Starts watching the library, if that is wanted and the library exists. -/
def startWatching (s : Session) : Except ServiceFault Session :=
  if !s.configuration.settings.watchLibraries then
    .ok (s.note [.info logger "Library watching disabled by configuration"])
  else match s.watcher with
    | some w => s.takeUp w
    | none => do
      match ← s.makeWatcher with
      | (s, none) => return s
      | (s, some w) => s.takeUp w

def isWatching (s : Session) : Bool := s.watcher.any Watcher.isRunning

def stopWatching (s : Session) : Session :=
  match s.watcher with
  | none => s
  | some w =>
    if w.isRunning then
      { s with watcher := some w.stop }.note [.info watchLogger "LibraryWatcher stopped"]
    else s

/-- Stops watching and empties the caches. -/
def shutDown (s : Session) : Session :=
  let s := (s.note [.info logger "LanguageService shutting down..."]).stopWatching
  let s := { s with imports := s.imports.invalidate none, outlines := s.outlines.invalidate none }
  s.note [.info logger "LanguageService shutdown complete"]

end Session
end EditorInsight
