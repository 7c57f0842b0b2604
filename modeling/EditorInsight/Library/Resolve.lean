import EditorInsight.Library.Probe
import EditorInsight.Text.Identifier
import EditorInsight.Text.Lowercase

/-!
# Names in a library

A library is a tree of packages (folders) and modules (files with one of the module extensions)
below a root. A dotted name leads to a package, to a module, or to a member of a module: the
longest initial part that exists decides, and a folder comes before a file of the same name.
-/

namespace EditorInsight

structure Library where
  root : Text
  /-- Module extensions, in the order in which they are tried. -/
  extensions : List Text := [".py", ".apy"]

inductive LibraryItem where
  | package (path : Text)
  | moduleFile (path extension : Text)
  deriving DecidableEq

/-- What a dotted name selects in a module. -/
inductive Selection where
  | whole
  | member (name : Text)
  | method (owner name : Text)
  deriving DecidableEq

/-- A module file and what is selected in it. -/
structure Target where
  path : Text
  selection : Selection
  deriving DecidableEq

/-- Parts after the module: one is a member, two are a class and its method, and more are ignored. -/
def Selection.ofParts : List Text → Selection
  | [] => .whole
  | [name] => .member name
  | owner :: name :: _ => .method owner name

namespace Library

/-- The file name without its module extension, of which case does not matter. -/
def moduleName? (lib : Library) (file : Text) : Option Text :=
  match lib.extensions.find? fun e => e.isSuffixOf (Text.lower file) with
  | none => none
  | some e => some (if e = [] then [] else file.take (file.length - e.length))

/-- The first extension with which a name in a folder is a file. -/
def moduleFile? (folder name : Text) : List Text → Probe (Option LibraryItem)
  | [] => pure none
  | e :: r => do
    let path := Path.append folder (name ++ e)
    if ← Probe.present path then
      if ← Probe.isFolder path then moduleFile? folder name r
      else return some (.moduleFile path e)
    else moduleFile? folder name r

def item? (lib : Library) (parts : List Text) : Probe (Option LibraryItem) := do
  if ← Probe.isFolder lib.root then
    match parts.getLast? with
    | none => return some (.package lib.root)
    | some name =>
      let path := Path.join lib.root parts
      if ← Probe.isFolder path then return some (.package path)
      else moduleFile? (Path.join lib.root parts.dropLast) name lib.extensions
  else return none

/-- The target of the first `k` parts, or of fewer if they lead nowhere. -/
def targetFrom? (lib : Library) (parts : List Text) : Nat → Probe (Option Target)
  | 0 => pure none
  | k + 1 => do
    match ← lib.item? (parts.take (k + 1)) with
    | none => targetFrom? lib parts k
    | some (.package _) => return none
    | some (.moduleFile path _) => return some ⟨path, .ofParts (parts.drop (k + 1))⟩

/-- The module and the member that a dotted name leads to. -/
def target? (lib : Library) (dotted : Text) : Probe (Option Target) :=
  let parts := Text.splitDotted dotted
  lib.targetFrom? parts parts.length

/-- Whether one of the paths is present, asked in order. -/
def anyPresent : List Text → Probe Bool
  | [] => pure false
  | p :: r => do
    if ← Probe.present p then return true
    else anyPresent r

/-- Whether the parts lead to a module file or to anything of that very name. -/
def hasParts (lib : Library) (parts : List Text) : Probe Bool :=
  match parts.getLast? with
  | none => pure false
  | some name =>
    let folder := Path.join lib.root parts.dropLast
    anyPresent (lib.extensions.map (fun e => Path.append folder (name ++ e)) ++
      [Path.join lib.root parts])

def hasModule (lib : Library) (dotted : Text) : Probe Bool :=
  lib.hasParts (Text.splitDotted dotted)

end Library

/-- The schema file of a table. -/
def tableFile? (tablesRoot table : Text) : Probe (Option Text) := do
  let path := Path.append tablesRoot (table ++ ".yaml")
  return if ← Probe.present path then some path else none

end EditorInsight
