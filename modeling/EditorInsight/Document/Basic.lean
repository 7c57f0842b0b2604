import EditorInsight.Document.Uri
import EditorInsight.Text.Lines

/-!
# Documents

An open document as one request sees it: its identifier, its text and the version of that text.
-/

namespace EditorInsight

structure Document where
  uri : Text
  text : Text
  version : Int := 0
  deriving DecidableEq

namespace Document

def path (d : Document) : Except Uri.Fault Text := Uri.path d.uri

/-- The line with the given index, empty if there is none. -/
def lineAt (d : Document) (line : Int) : Text :=
  if line < 0 then [] else ((Text.splitLines d.text)[line.toNat]?).getD []

/-- What stands before a column of a line. -/
def beforeCursor (d : Document) (line column : Int) : Text := (d.lineAt line).take column.toNat

end Document
end EditorInsight
