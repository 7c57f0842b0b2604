import EditorInsight.Text.Blank

/-!
# Bracket nesting

Depth counters for parentheses, square brackets and braces over a stream of characters. A closing
bracket never takes its counter below zero. Counting is lexical: brackets in string literals and
comments count like any other. Text is cut only at separators outside all brackets.
-/

namespace EditorInsight

/-- How many brackets of each kind are open. -/
structure Nesting where
  paren : Nat := 0
  bracket : Nat := 0
  brace : Nat := 0
  deriving DecidableEq

namespace Nesting

def feed (d : Nesting) : Char → Nesting
  | '(' => { d with paren := d.paren + 1 }
  | '[' => { d with bracket := d.bracket + 1 }
  | '{' => { d with brace := d.brace + 1 }
  | ')' => { d with paren := d.paren - 1 }
  | ']' => { d with bracket := d.bracket - 1 }
  | '}' => { d with brace := d.brace - 1 }
  | _ => d

/-- The counters after a text, from no open bracket. -/
def ofText (t : Text) : Nesting := t.foldl feed {}

def isOuter (d : Nesting) : Bool := d.paren == 0 && d.bracket == 0 && d.brace == 0

def describe (d : Nesting) : Text :=
  "BracketDepth(paren=" ++ Text.ofNat d.paren ++ ", bracket=" ++ Text.ofNat d.bracket ++
    ", brace=" ++ Text.ofNat d.brace ++ ")"

/-- The number of commas outside all brackets, with `d` open at the start. -/
def countCommas (d : Nesting) : Text → Nat
  | [] => 0
  | c :: r =>
    let d := d.feed c
    (if c = ',' && d.isOuter then 1 else 0) + countCommas d r

/-- The pieces between the separators outside all brackets, as they stand. A separator is one
character, so a text of another length separates nothing. -/
def segments (sep : Text) (d : Nesting) : Text → List Text
  | [] => [[]]
  | c :: r =>
    let d := d.feed c
    if [c] = sep && d.isOuter then [] :: segments sep d r
    else match segments sep d r with
      | [] => [[c]]
      | s :: ss => (c :: s) :: ss

end Nesting

def topLevelCommas (t : Text) : Nat := Nesting.countCommas {} t

/-- The pieces between top-level separators, trimmed, blank ones dropped. -/
def splitTopLevel (t : Text) (sep : Text := [',']) : List Text :=
  ((Nesting.segments sep {} t).map Text.trim).filter (· ≠ [])

end EditorInsight
