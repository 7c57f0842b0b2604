import EditorInsight.Files.Path
import EditorInsight.Text.Utf8

/-!
# File trees

A tree of folders and files without links. A place in it is the list of names from the top. Walking
a path goes piece by piece: every piece but the last step must start at a folder, so that a missing
folder cannot be left again by `..` and a file has nothing below it.
-/

namespace EditorInsight

inductive FileNode where
  | file (bytes : List UInt8)
  | folder (children : List (Text × FileNode))

namespace FileNode

def isFolder : FileNode → Bool
  | .file _ => false
  | .folder _ => true

def children : FileNode → List (Text × FileNode)
  | .file _ => []
  | .folder cs => cs

def child? (n : FileNode) (name : Text) : Option FileNode :=
  (n.children.find? fun c => c.1 = name).map Prod.snd

def at? : FileNode → List Text → Option FileNode
  | n, [] => some n
  | n, name :: r => (n.child? name).bind fun c => c.at? r

def putChild (name : Text) (node : FileNode) : List (Text × FileNode) → List (Text × FileNode)
  | [] => [(name, node)]
  | c :: r => if c.1 = name then (name, node) :: r else c :: putChild name node r

/-- A node put at a place; the folders above it are made where they are missing. -/
def put : FileNode → List Text → FileNode → FileNode
  | _, [], node => node
  | n, name :: r, node =>
    .folder (putChild name (put ((n.child? name).getD (.folder [])) r node) n.children)

def remove : FileNode → List Text → FileNode
  | n, [] => n
  | n, [name] => .folder (n.children.filter fun c => c.1 ≠ name)
  | n, name :: r => match n.child? name with
    | some c => if c.isFolder then .folder (putChild name (remove c r) n.children) else n
    | none => n

/-- The most bytes that one name may have. -/
def maxNameBytes : Nat := 255

/-- The bytes that a whole path must stay below. -/
def pathByteLimit : Nat := 4096

inductive Arrival where
  | absent
  /-- The path leads on from a file. -/
  | belowFile
  | tooLong
  | found (place : List Text) (node : FileNode)

/-- Walks the pieces of a path from a place; an empty piece and `.` stay where they are. -/
def walk (top : FileNode) : List Text → List Text → Arrival
  | here, [] => match top.at? here with
    | some n => .found here n
    | none => .absent
  | here, piece :: r =>
    match top.at? here with
    | some (.folder _) =>
      if piece = [] || piece = ['.'] then walk top here r
      else if piece = ['.', '.'] then walk top here.dropLast r
      else if (Text.encodeUtf8 piece).length > maxNameBytes then .tooLong
      else walk top (here ++ [piece]) r
    | some (.file _) => .belowFile
    | none => .absent

end FileNode
end EditorInsight
