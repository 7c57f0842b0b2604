import EditorInsight.Yaml.Scan

/-!
# Plain and block scalars

A plain scalar runs over words and lines until an indicator, a comment or a smaller indentation
ends it. A block scalar is a run of lines with one indentation, kept as they are or folded.
-/

namespace EditorInsight.Yaml

/-- The characters up to the next blank or indicator. -/
def plainRun (inFlow : Bool) : Text → Text
  | [] => []
  | c :: r =>
    let next := r.headD '\x00'
    if isEndOrBlank c || (c == ':' && (isEndOrBlank next || (inFlow && ",[]\x7b\x7d".toList.elem next))) ||
        (inFlow && ",?[]\x7b\x7d".toList.elem c) then []
    else c :: plainRun inFlow r

/-- The line ends after the first one, unless they lead to the border of a document. -/
def plainBreaks : Nat → Scan (Option Text)
  | 0 => return some []
  | n + 1 => do
    if ← Scan.atSeparator then return none
    Scan.skipSpaces
    if isBreak (← Scan.peek) then
      let b ← Scan.lineBreak
      return (← plainBreaks n).map (b ++ ·)
    else return some []

/-- What separates two words of a plain scalar, and whether a line ended. Nothing separates them if the
scalar is over. -/
def plainSpaces : Scan (Text × Bool) := do
  let blanks ← Scan.takeWhile (· == ' ')
  if isBreak (← Scan.peek) then
    let first ← Scan.lineBreak
    match ← plainBreaks (← Scan.fuel) with
    | none => return ([], true)
    | some breaks => return (foldBreaks first breaks, true)
  else return (blanks, false)

/-- Words after `spaces`, and whether a line ended after the last one. -/
def plainWords (inFlow : Bool) (indent : Int) (spaces : Text) (lineEnded : Bool) :
    Nat → Scan (Text × Bool)
  | 0 => return ([], lineEnded)
  | n + 1 => do
    let run := plainRun inFlow (← get).rest
    if run = [] || run.head? = some '#' then return ([], lineEnded)
    Scan.advance run.length
    let (next, ended) ← plainSpaces
    if next = [] || (← Scan.peek) == '#' || (!inFlow && (← Scan.column) < indent) then
      return (spaces ++ run, ended)
    let (more, ended) ← plainWords inFlow indent next ended n
    return (spaces ++ run ++ more, ended)

/-- A scalar without quotes inside the given indentation, and whether it ended with its line. -/
def plainScalar (inFlow : Bool) (indent : Int) : Scan (Text × Bool) := do
  plainWords inFlow (indent + 1) [] false (← Scan.fuel)

/-- What is done with the line ends after a block scalar. -/
inductive Chomping where
  | strip
  | clip
  | keep
  deriving DecidableEq

def chomping? : Char → Option Chomping
  | '+' => some .keep
  | '-' => some .strip
  | _ => none

/-- The digit that gives the indentation of a block scalar. -/
def blockDigit (start : Mark) : Scan (Option Nat) := do
  let c ← Scan.peek
  if c == '0' then
    Scan.complain "while scanning a block scalar" start
      "expected indentation indicator in the range 1-9, but found 0"
  else if c.isDigit then
    Scan.advance
    return some (c.toNat - '0'.toNat)
  else return none

def blockChomping : Scan (Option Chomping) := do
  match chomping? (← Scan.peek) with
  | some c =>
    Scan.advance
    return some c
  | none => return none

/-- The two indicators after the sign of a block scalar, in either order. -/
def blockHeader (start : Mark) : Scan (Chomping × Option Nat) := do
  let result ← match ← blockChomping with
    | some c => pure (c, ← blockDigit start)
    | none =>
      match ← blockDigit start with
      | some d => pure ((← blockChomping).getD .clip, some d)
      | none => pure (.clip, none)
  let c ← Scan.peek
  if !isEndOrSpace c then
    Scan.complain "while scanning a block scalar" start
      ("expected chomping or indentation indicators, but found " ++ quoted c)
  return result

/-- The rest of the line that a block scalar starts in. -/
def blockHeaderEnd (start : Mark) : Scan Unit := do
  Scan.skipComment
  let c ← Scan.peek
  if !isEndOrBreak c then
    Scan.complain "while scanning a block scalar" start
      ("expected a comment or a line break, but found " ++ quoted c)
  let _ ← Scan.lineBreak

/-- Leading empty lines, and the widest indentation on the way to the first full one. -/
def blockIndentation (widest : Nat) : Nat → Scan (Text × Nat)
  | 0 => return ([], widest)
  | n + 1 => do
    let c ← Scan.peek
    if c == ' ' then
      Scan.advance
      blockIndentation (max widest (← Scan.column)) n
    else if isBreak c then
      let b ← Scan.lineBreak
      let (breaks, widest) ← blockIndentation widest n
      return (b ++ breaks, widest)
    else return ([], widest)

/-- Skips spaces up to a column. -/
def skipIndent (indent : Nat) : Nat → Scan Unit
  | 0 => return
  | n + 1 => do
    if (← Scan.column) < indent && (← Scan.peek) == ' ' then
      Scan.advance
      skipIndent indent n

/-- Empty lines inside a block scalar, and the indentation after them. -/
def blockBreaks (indent : Nat) : Nat → Scan Text
  | 0 => return []
  | n + 1 => do
    skipIndent indent indent
    if isBreak (← Scan.peek) then
      let b ← Scan.lineBreak
      return b ++ (← blockBreaks indent n)
    else return []

/-- Whether another line of the block scalar starts here. -/
def atBlockLine (indent : Nat) : Scan Bool := do
  return (← Scan.column) == indent && !isEnd (← Scan.peek)

/-- The lines of a block scalar after `breaks`, then its last line end and the empty lines after it. -/
def blockLines (folded : Bool) (indent : Nat) (breaks : Text) : Nat → Scan (Text × Text × Text)
  | 0 => return ([], [], breaks)
  | n + 1 => do
    if !(← atBlockLine indent) then return ([], [], breaks)
    let startsFull := !isTabOrSpace (← Scan.peek)
    let line ← Scan.takeWhile fun c => !isEndOrBreak c
    let lineEnd ← Scan.lineBreak
    let next ← blockBreaks indent (← Scan.fuel)
    if !(← atBlockLine indent) then return (breaks ++ line, lineEnd, next)
    let between :=
      if folded && lineEnd = ['\n'] && startsFull && !isTabOrSpace (← Scan.peek) then
        if next = [] then [' '] else []
      else lineEnd
    let (more, tail) ← blockLines folded indent next n
    return (breaks ++ line ++ between ++ more, tail)

/-- A literal or folded scalar inside the given indentation. -/
def blockScalar (folded : Bool) (outer : Int) : Scan Text := do
  let start ← Scan.mark
  Scan.advance
  let (chomping, digit) ← blockHeader start
  blockHeaderEnd start
  let least := (max (outer + 1) 1).toNat
  let (indent, breaks) ← match digit with
    | none => do
      let (breaks, widest) ← blockIndentation 0 (← Scan.fuel)
      pure (max least widest, breaks)
    | some d => do
      let indent := least + d - 1
      pure (indent, ← blockBreaks indent (← Scan.fuel))
  let (body, lineEnd, tail) ← blockLines folded indent breaks (← Scan.fuel)
  return body ++ match chomping with
    | .strip => []
    | .clip => lineEnd
    | .keep => lineEnd ++ tail

end EditorInsight.Yaml
