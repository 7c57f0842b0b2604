import EditorInsight.Files.Path
import EditorInsight.Text.Lowercase

/-!
# Watching a library tree

A watcher turns events in a file tree into reports of changed module files and hands every report to
its listeners, in the order in which they registered. A listener may fail; the others still hear
of the change. Whoever registers or leaves while a report is handed out is heard of from the next
report on.
-/

namespace EditorInsight

inductive EventKind where
  | created
  | modified
  | deleted
  | moved (destination : Text)
  /-- Anything that leaves the files as they were. -/
  | harmless
  deriving DecidableEq

structure FileEvent where
  kind : EventKind
  path : Text
  isFolder : Bool := false
  deriving DecidableEq

structure Watcher (κ : Type) where
  root : Text
  extensions : List Text := [".py", ".apy"]
  listeners : List κ := []
  isRunning : Bool := false

/-- A report handed to a listener, and how the listener failed if it did. -/
structure Delivery (κ : Type) where
  listener : κ
  path : Text
  failure : Option Text

namespace Watcher

variable {κ : Type}

/-- Names of caches, repositories and temporary files. -/
def isIgnoredName (name : Text) : Bool :=
  ["__pycache__", ".git", ".mypy_cache", ".pytest_cache", ".ruff_cache"].any (fun s => s.toList = name) ||
    [".pyc", ".swp", "~"].any (fun s => s.toList.isSuffixOf name) || ".#".toList.isPrefixOf name

/-- Whether a component of the path is ignored. -/
def isIgnored (path : Text) : Bool := (Path.components path).any isIgnoredName

/-- Whether the path has a module extension, of which case does not matter. -/
def isModuleFile (w : Watcher κ) (path : Text) : Bool :=
  w.extensions.any fun e => e.isSuffixOf (Text.lower path)

def isReported (w : Watcher κ) (path : Text) : Bool := !isIgnored path && w.isModuleFile path

/-- The paths that an event touches: a move leaves one and reaches another. -/
def touched (e : FileEvent) : List Text :=
  if e.isFolder then []
  else match e.kind with
    | .created => [e.path]
    | .modified => [e.path]
    | .deleted => [e.path]
    | .moved destination => [e.path, destination]
    | .harmless => []

/-- The paths that are reported for an event, in order. -/
def reports (w : Watcher κ) (e : FileEvent) : List Text := (touched e).filter w.isReported

/-- Adds a listener that is not there yet. -/
def register [DecidableEq κ] (w : Watcher κ) (listener : κ) : Watcher κ :=
  if w.listeners.elem listener then w else { w with listeners := w.listeners ++ [listener] }

def unregister [DecidableEq κ] (w : Watcher κ) (listener : κ) : Watcher κ :=
  { w with listeners := w.listeners.erase listener }

def stop (w : Watcher κ) : Watcher κ := { w with isRunning := false }

/-- Starts a watcher that is not running. -/
def start? (w : Watcher κ) : Option (Watcher κ) :=
  if w.isRunning then none else some { w with isRunning := true }

/-- The complaint about starting a watcher twice. -/
def alreadyRunning : Text := "LibraryWatcher is already running"

variable {σ : Type}

def notify (call : κ → Text → σ → σ × Option Text) (path : Text) :
    List κ → σ → σ × List (Delivery κ)
  | [], s => (s, [])
  | listener :: r, s =>
    let (s, failure) := call listener path s
    let (s, rest) := notify call path r s
    (s, ⟨listener, path, failure⟩ :: rest)

/-- Hands reports out one after the other, each to the listeners registered by then. -/
def deliver (listeners : σ → List κ) (call : κ → Text → σ → σ × Option Text) :
    List Text → σ → σ × List (Delivery κ)
  | [], s => (s, [])
  | path :: r, s =>
    let (s, first) := notify call path (listeners s) s
    let (s, rest) := deliver listeners call r s
    (s, first ++ rest)

end Watcher

/-- What is logged about a failed delivery. -/
def Delivery.complaint? {κ : Type} (d : Delivery κ) : Option Text :=
  d.failure.map fun m => "Invalidation callback failed for " ++ d.path ++ ": " ++ m

end EditorInsight
