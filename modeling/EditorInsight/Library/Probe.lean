import EditorInsight.Data.Dialogue
import EditorInsight.Files.Disk

/-!
# Questions about files

Everything that the library knows about a disk it learns by three questions: what a file says, what
a folder lists, and whether something is there.
-/

namespace EditorInsight

inductive FileQuestion where
  | read (path : Text)
  | list (path : Text)
  | present (path : Text)
  deriving DecidableEq

namespace FileQuestion

abbrev Answer : FileQuestion → Type
  | .read _ => Option Text
  | .list _ => Option (List DirEntry)
  | .present _ => Bool

def path : FileQuestion → Text
  | .read p => p
  | .list p => p
  | .present p => p

end FileQuestion

abbrev Probe := Dialogue FileQuestion FileQuestion.Answer

namespace Probe

def read (path : Text) : Probe (Option Text) := Dialogue.question (FileQuestion.read path)

def list (path : Text) : Probe (Option (List DirEntry)) := Dialogue.question (FileQuestion.list path)

def present (path : Text) : Probe Bool := Dialogue.question (FileQuestion.present path)

/-- Whether there is a folder, that is, whether it can be listed. -/
def isFolder (path : Text) : Probe Bool := do
  return (← list path).isSome

end Probe

namespace Disk

/-- What a disk answers, and what it reports. -/
def reply (d : Disk) : (q : FileQuestion) → Except Path.Fault (q.Answer × List FileNotice)
  | .read p => .ok (d.read p)
  | .list p => d.list p
  | .present p => .ok (d.isPresent p, [])

/-- The result of a probe on an unchanging disk, leaving its reports aside. -/
def probe {α : Type} (d : Disk) (p : Probe α) : Except Path.Fault α :=
  p.run fun q => (d.reply q).map Prod.fst

end Disk
end EditorInsight
