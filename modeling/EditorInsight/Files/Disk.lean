import EditorInsight.Files.Tree
import EditorInsight.Text.Quoted

/-!
# Disks

A disk is a file tree seen from a current directory, with a limit on the size of the files that are
read. Reading, listing and asking for presence answer with absence where there is nothing to give;
what a user should know about is reported as a notice. Reading tidies the path first, listing and
asking for presence take it as it is.
-/

namespace EditorInsight

structure DirEntry where
  name : Text
  isFolder : Bool
  deriving DecidableEq

/-- What a disk reports about a path besides its answer. -/
inductive FileNotice where
  | unreadable (path tidied : Text)
  | unlisted (path : Text)
  | oversized (path : Text) (size : Nat) (limit : Int)
  | undecodable (path : Text)
  deriving DecidableEq

namespace FileNotice

def nameTooLong (path : Text) : Text := "[Errno 36] File name too long: " ++ Text.quote path

def message : FileNotice → Text
  | .unreadable path tidied => "Failed to read " ++ path ++ ": " ++ nameTooLong tidied
  | .unlisted path => "Failed to list directory " ++ path ++ ": " ++ nameTooLong path
  | .oversized path size limit =>
    "Skipping " ++ path ++ ": " ++ Text.ofNat size ++ " bytes exceeds limit (" ++ Text.ofInt limit ++
      ")"
  | .undecodable path => "File " ++ path ++ " is not UTF-8, using latin-1 fallback encoding"

end FileNotice

structure Disk where
  top : FileNode := .folder []
  current : List Text := []
  maxFileBytes : Int := 10485760

namespace Disk

/-- Where a path leads. -/
def arrive (d : Disk) (path : Text) : FileNode.Arrival :=
  if path = [] then .absent
  else if (Text.encodeUtf8 path).length ≥ FileNode.pathByteLimit then .tooLong
  else d.top.walk (if Path.isAbsolute path then [] else d.current) (Path.pieces path)

def isPresent (d : Disk) (path : Text) : Bool :=
  !Path.hasNull path && match d.arrive path with
    | .found .. => true
    | _ => false

def isFolder (d : Disk) (path : Text) : Bool :=
  !Path.hasNull path && match d.arrive path with
    | .found _ n => n.isFolder
    | _ => false

/-- The text of a file: UTF-8, or one character for each byte if it is not. -/
def decode (bytes : List UInt8) : Text × Bool :=
  match Text.decodeUtf8? bytes with
  | some t => (Text.universalNewlines t, true)
  | none => (Text.universalNewlines (Text.decodeLatin1 bytes), false)

def read (d : Disk) (path : Text) : Option Text × List FileNotice :=
  if Path.hasNull path then (none, [])
  else match d.arrive (Path.tidy path) with
    | .tooLong => (none, [.unreadable path (Path.tidy path)])
    | .found _ (.file bytes) =>
      if bytes.length > d.maxFileBytes then
        (none, [.oversized path bytes.length d.maxFileBytes])
      else match decode bytes with
        | (t, true) => (some t, [])
        | (t, false) => (some t, [.undecodable path])
    | _ => (none, [])

/-- The entries of the folder at a path, by name. -/
def list (d : Disk) (path : Text) : Except Path.Fault (Option (List DirEntry) × List FileNotice) :=
  if Path.hasNull path then .error .embeddedNull
  else match d.arrive path with
    | .tooLong => .ok (none, [.unlisted path])
    | .found _ (.folder cs) =>
      .ok (some (Text.sortOn DirEntry.name (cs.map fun c => ⟨c.1, c.2.isFolder⟩)), [])
    | _ => .ok (none, [])

end Disk
end EditorInsight
