import EditorInsight.Files.Disk

/-!
# Changing a disk

Making folders and adding to files, as far as a log needs it.
-/

namespace EditorInsight

inductive FolderFault where
  /-- There is a file in its place. -/
  | isFile
  /-- There is a file in the place of a folder above it. -/
  | belowFile
  /-- The folder above it is missing. -/
  | orphan
  | tooLong
  | path (fault : Path.Fault)
  deriving DecidableEq

namespace FileNode

/-- Makes one folder below what the pieces of a path lead to, unless it is there. -/
def makeFolder (top : FileNode) (start above : List Text) (name : Text) :
    Except FolderFault FileNode :=
  match top.walk start above with
  | .absent => .error .orphan
  | .belowFile | .found _ (.file _) => .error .belowFile
  | .tooLong => .error .tooLong
  | .found here (.folder _) =>
    if name = ['.', '.'] then .ok top
    else if (Text.encodeUtf8 name).length > maxNameBytes then .error .tooLong
    else match top.at? (here ++ [name]) with
      | some (.folder _) => .ok top
      | some (.file _) => .error .isFile
      | none => .ok (top.put (here ++ [name]) (.folder []))

/-- Makes the folder that the pieces of a path, the last one first, lead to. If the folder above it is
missing, that one is made first. -/
def makeFolders (top : FileNode) (start : List Text) : List Text → Except FolderFault FileNode
  | [] => .ok top
  | name :: above =>
    match top.makeFolder start above.reverse name with
    | .error .orphan => do (← top.makeFolders start above).makeFolder start above.reverse name
    | result => result

/-- The tree with bytes added to the file at the place, which is made if it is missing. -/
def appendBytes (top : FileNode) (place : List Text) (bytes : List UInt8) : FileNode :=
  match top.at? place with
  | some (.file old) => top.put place (.file (old ++ bytes))
  | some (.folder _) => top
  | none => top.put place (.file bytes)

end FileNode

namespace Disk

/-- Makes the folder at a path and those above it, as far as they are missing. The pieces of the path
are followed on the disk, so a folder that `..` leaves again is made too. -/
def makeFolder (d : Disk) (path : Text) : Except FolderFault Disk := do
  if Path.hasNull path then throw (.path .embeddedNull)
  if (Text.encodeUtf8 path).length ≥ FileNode.pathByteLimit then throw .tooLong
  let start := if Path.isAbsolute path then [] else d.current
  return { d with top := ← d.top.makeFolders start (Path.components path).reverse }

def appendText (d : Disk) (path text : Text) : Disk :=
  { d with top := d.top.appendBytes (Path.place d.current path) (Text.encodeUtf8 text) }

end Disk
end EditorInsight
