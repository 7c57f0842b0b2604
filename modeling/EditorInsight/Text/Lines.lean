import EditorInsight.Text.Blank

/-!
# Lines

A line ends at a line feed, together with one carriage return directly before it. A carriage
return elsewhere is an ordinary character.
-/

namespace EditorInsight.Text

def splitLines : Text → List Text
  | [] => [[]]
  | '\r' :: '\n' :: r => [] :: splitLines r
  | '\n' :: r => [] :: splitLines r
  | c :: r =>
    match splitLines r with
    | [] => [[c]]
    | s :: ss => (c :: s) :: ss

/-- Whether the line starts with a blank character. -/
def isIndented : Text → Bool
  | [] => false
  | c :: _ => isBlank c

/-- Whether the line is not empty and starts with a character that is not blank. -/
def isTopLevel : Text → Bool
  | [] => false
  | c :: _ => !isBlank c

/-- The number of blank characters before the first other one. -/
def indentation (line : Text) : Nat := line.length - (trimLeft line).length

/-- Whether the line is blank or a comment. -/
def isSkippable (line : Text) : Bool :=
  match trim line with
  | [] => true
  | c :: _ => c == '#'

end EditorInsight.Text
