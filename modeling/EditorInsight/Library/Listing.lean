import EditorInsight.Library.Resolve
import EditorInsight.Source.Reference

/-!
# What a library offers

The packages and modules of a folder that can be imported, the names at the top of a library, and
the modules of a library that a text refers to.
-/

namespace EditorInsight

inductive ChildKind where
  | package
  | moduleFile
  deriving DecidableEq

def ChildKind.word : ChildKind → Text
  | .package => "package"
  | .moduleFile => "module"

structure LibraryChild where
  name : Text
  kind : ChildKind
  deriving DecidableEq

namespace Library

/-- Names starting with an underscore are private. -/
def isPrivate (name : Text) : Bool := name.head? = some '_'

/-- What an entry of a folder can be imported as. -/
def child? (lib : Library) (entry : DirEntry) : Option LibraryChild :=
  if isPrivate entry.name then none
  else if entry.isFolder then
    if Text.isName entry.name then some ⟨entry.name, .package⟩ else none
  else match lib.moduleName? entry.name with
    | none => none
    | some name => if Text.isName name && !isPrivate name then some ⟨name, .moduleFile⟩ else none

/-- The importable entries of a folder by name; there are none if it cannot be listed. -/
def children (lib : Library) (folder : Text) : Probe (List LibraryChild) := do
  match ← Probe.list folder with
  | none => return []
  | some entries => return Text.sortOn LibraryChild.name (entries.filterMap lib.child?)

def importNames (lib : Library) : Probe (List Text) := do
  return (← lib.children lib.root).map LibraryChild.name

/-- The longest existing initial part of a chain, with at least two and at most `k + 1` parts. -/
def longestModule? (lib : Library) (parts : List Text) : Nat → Probe (Option Text)
  | 0 => pure none
  | k + 1 => do
    let name := Text.joinDotted (parts.take (k + 2))
    if ← lib.hasModule name then return some name
    else longestModule? lib parts k

/-- The module that a chain refers to. If no initial part exists, the chain without its last part is
asked for once more. -/
def referredModule? (lib : Library) (parts : List Text) : Probe (Option Text) := do
  match ← lib.longestModule? parts (parts.length - 1) with
  | some name => return some name
  | none =>
    if parts.length ≥ 3 then
      let name := Text.joinDotted parts.dropLast
      return if ← lib.hasModule name then some name else none
    else return none

/-- The modules that the chains refer to, for the chains that start with an import. -/
def referredModules (lib : Library) (imports : List Text) : List (List Text) → Probe (List Text)
  | [] => pure []
  | parts :: r => do
    let found ← if parts.head?.any (imports.elem ·) then lib.referredModule? parts else pure none
    return found.toList ++ (← referredModules lib imports r)

/-- The modules below the given imports that a text refers to, each once and in order. -/
def deepImports (lib : Library) (text : Text) (imports : List Text) : Probe (List Text) := do
  if ← Probe.isFolder lib.root then
    let names ← lib.referredModules imports (Source.references text)
    return Text.dedupNeighbours (Text.sortOn id names)
  else return []

end Library
end EditorInsight
