import EditorInsight.Yaml.Fault

/-!
# Reading along a text

A spot is what is left of a text together with the position reached. Scanning is stateful reading
from a spot that may end in a fault. Past the end of the text stands the null character, which no
readable text contains, or a fault if the text goes on but cannot be read.
-/

namespace EditorInsight.Yaml

structure Spot where
  rest : Text
  mark : Mark := {}
  /-- Why nothing can be read after the rest, unless the text ends there. -/
  wall : Option Fault := none

abbrev Scan := StateT Spot (Except Fault)

def isBreak (c : Char) : Bool := c == '\n' || c == '\x85' || c == '\u2028' || c == '\u2029'

def isEnd (c : Char) : Bool := c == '\x00'

/-- The end of the text or of a line. -/
def isEndOrBreak (c : Char) : Bool := isEnd c || isBreak c

/-- The end of the text or of a line, or a space. -/
def isEndOrSpace (c : Char) : Bool := isEndOrBreak c || c == ' '

def isTabOrSpace (c : Char) : Bool := c == ' ' || c == '\t'

/-- The end of the text or of a line, a space or a tab. -/
def isEndOrBlank (c : Char) : Bool := isEndOrBreak c || isTabOrSpace c

/-- The position after a character. A byte order mark takes no column. -/
def Mark.after (m : Mark) (c : Char) : Mark :=
  if isBreak c then ⟨m.line + 1, 0, m.index + 1⟩
  else if c = '\ufeff' then ⟨m.line, m.column, m.index + 1⟩
  else ⟨m.line, m.column + 1, m.index + 1⟩

namespace Spot

/-- The character `n` places ahead. -/
def look (s : Spot) (n : Nat) : Char := s.rest.getD n '\x00'

def step (s : Spot) : Spot :=
  match s.rest with
  | [] => s
  | c :: r => { s with rest := r, mark := s.mark.after c }

def skip (s : Spot) : Nat → Spot
  | 0 => s
  | n + 1 => s.step.skip n

end Spot

namespace Scan

/-- Fails if the character `n` places ahead cannot be read. -/
def reach (n : Nat) : Scan Unit := do
  let s ← get
  match s.wall with
  | some f => if (s.rest.drop n).isEmpty then throw f
  | none => return

def peek (n : Nat := 0) : Scan Char := do
  reach n
  return (← get).look n

def mark : Scan Mark := return (← get).mark

def column : Scan Nat := return (← get).mark.column

/-- Moves on to a character that can be read. -/
def advance (n : Nat := 1) : Scan Unit := do
  modify (·.skip n)
  reach 0

/-- Whether a line that marks the border of a document starts here. -/
def atSeparator : Scan Bool := do
  reach 2
  let start := (← get).rest.take 3
  if start = ['-', '-', '-'] || start = ['.', '.', '.'] then return isEndOrBlank (← peek 3)
  else return false

/-- The longest run of characters that satisfy the condition. -/
def takeWhile (p : Char → Bool) : Scan Text := do
  let run := (← get).rest.takeWhile p
  advance run.length
  return run

def skipSpaces : Scan Unit := do
  let _ ← takeWhile (· == ' ')

/-- Skips spaces and a comment. -/
def skipComment : Scan Unit := do
  skipSpaces
  if (← peek) == '#' then
    let _ ← takeWhile fun c => !isEndOrBreak c

/-- A line end, as the characters that it contributes to a scalar; nothing if there is none. -/
def lineBreak : Scan Text := do
  let c ← peek
  if c == '\n' || c == '\x85' then
    advance
    return ['\n']
  else if isBreak c then
    advance
    return [c]
  else return []

/-- Fails at the position reached, inside something that began at `start`. -/
def complain {α : Type} (context : Text) (start : Mark) (problem : Text) : Scan α := do
  throw (.malformed ⟨some context, some start, problem, ← mark⟩)

/-- The number of characters left, which bounds every loop over them. -/
def fuel : Scan Nat := return (← get).rest.length + 1

end Scan

/-- How a character is named in a complaint. -/
def quoted (c : Char) : Text := Text.quote [c]

/-- A line end between words is a space; each further one stands for itself. -/
def foldBreaks (first breaks : Text) : Text :=
  (if first ≠ ['\n'] then first else if breaks = [] then [' '] else []) ++ breaks

end EditorInsight.Yaml
