import EditorInsight.Text.CodePoints
import EditorInsight.Text.Percent
import EditorInsight.Yaml.Scan

/-!
# Quoted scalars

Between single quotes only the quote itself is written twice; between double quotes a backslash
starts an escape. In both, a line end and the blanks around it become one space, and further line
ends are kept.
-/

namespace EditorInsight.Yaml

/-- The characters with an escape of one letter. -/
def escapeChar? : Char → Option Char
  | '0' => some '\x00'
  | 'a' => some '\x07'
  | 'b' => some '\x08'
  | 't' => some '\t'
  | '\t' => some '\t'
  | 'n' => some '\n'
  | 'v' => some '\x0b'
  | 'f' => some '\x0c'
  | 'r' => some '\r'
  | 'e' => some '\x1b'
  | ' ' => some ' '
  | '"' => some '"'
  | '\\' => some '\\'
  | '/' => some '/'
  | 'N' => some '\x85'
  | '_' => some '\xa0'
  | 'L' => some '\u2028'
  | 'P' => some '\u2029'
  | _ => none

/-- The number of hexadecimal digits after an escape letter. -/
def escapeWidth? : Char → Option Nat
  | 'x' => some 2
  | 'u' => some 4
  | 'U' => some 8
  | _ => none

def hexNumber (ds : Text) : Nat := ds.foldl (fun n d => n * 16 + (Text.hexDigit? d).getD 0) 0

def isHex (c : Char) : Bool := (Text.hexDigit? c).isSome

/-- The line ends that follow the first one, and the blanks around them. -/
def quotedBreaks (start : Mark) : Nat → Scan Text
  | 0 => return []
  | n + 1 => do
    if ← Scan.atSeparator then
      Scan.complain "while scanning a quoted scalar" start "found unexpected document separator"
    let _ ← Scan.takeWhile isTabOrSpace
    if isBreak (← Scan.peek) then
      let b ← Scan.lineBreak
      return b ++ (← quotedBreaks start n)
    else return []

/-- The text of a scalar. An escape may name code points that are no characters. -/
structure ScalarText where
  text : Text
  /-- All code points, if some of them are no characters. -/
  points : Option (List Nat) := none
  deriving DecidableEq

namespace ScalarText

def ofPoints (points : List Nat) : ScalarText :=
  if points.any Text.isSurrogate then ⟨Text.ofPoints points, some points⟩
  else ⟨points.map Char.ofNat, none⟩

def codes (t : ScalarText) : List Nat := t.points.getD (t.text.map Char.toNat)

end ScalarText

def pointsOf (t : Text) : List Nat := t.map Char.toNat

/-- The code point that is written in hexadecimal. -/
def numberedPoint (start : Mark) (width : Nat) : Scan Nat := do
  let digits := ((← get).rest.take width).takeWhile isHex
  if digits.length < width then
    Scan.complain "while scanning a double-quoted scalar" start
      ("expected escape sequence of " ++ Text.ofNat width ++ " hexadecimal numbers, but found " ++
        quoted (← Scan.peek digits.length))
  let code := hexNumber digits
  if code ≥ 0x80000000 then throw (.scalar .tooLarge)
  if code ≥ 0x110000 then throw (.scalar (.badValue "chr() arg not in range(0x110000)"))
  Scan.advance width
  return code

/-- What stands after a backslash. -/
def escape (start : Mark) : Scan (List Nat) := do
  let c ← Scan.peek
  match escapeChar? c with
  | some d =>
    Scan.advance
    return [d.toNat]
  | none =>
    match escapeWidth? c with
    | some width =>
      Scan.advance
      return [← numberedPoint start width]
    | none =>
      if isBreak c then
        let _ ← Scan.lineBreak
        return pointsOf (← quotedBreaks start (← Scan.fuel))
      else
        Scan.complain "while scanning a double-quoted scalar" start
          ("found unknown escape character " ++ quoted c)

def isQuotedStop (c : Char) : Bool := c == '\'' || c == '"' || c == '\\' || isEndOrBlank c

/-- Characters up to the next blank or the closing quote. -/
def quotedRun (double : Bool) (start : Mark) : Nat → Scan (List Nat)
  | 0 => return []
  | n + 1 => do
    let run := pointsOf (← Scan.takeWhile fun c => !isQuotedStop c)
    let c ← Scan.peek
    if !double && c == '\'' && (← Scan.peek 1) == '\'' then
      Scan.advance 2
      return run ++ '\''.toNat :: (← quotedRun double start n)
    else if (double && c == '\'') || (!double && (c == '"' || c == '\\')) then
      Scan.advance
      return run ++ c.toNat :: (← quotedRun double start n)
    else if double && c == '\\' then
      Scan.advance
      let piece ← escape start
      return run ++ piece ++ (← quotedRun double start n)
    else return run

/-- Blanks between words, or the line ends that stand for them. -/
def quotedSpaces (start : Mark) : Scan Text := do
  let blanks ← Scan.takeWhile isTabOrSpace
  let c ← Scan.peek
  if isEnd c then
    Scan.complain "while scanning a quoted scalar" start "found unexpected end of stream"
  else if isBreak c then
    let first ← Scan.lineBreak
    let breaks ← quotedBreaks start (← Scan.fuel)
    return foldBreaks first breaks
  else return blanks

/-- Words and what is between them, up to the closing quote. -/
def quotedBody (double : Bool) (start : Mark) : Nat → Scan (List Nat)
  | 0 => return []
  | n + 1 => do
    let run ← quotedRun double start (← Scan.fuel)
    if (← Scan.peek) == (if double then '"' else '\'') then return run
    let spaces ← quotedSpaces start
    return run ++ pointsOf spaces ++ (← quotedBody double start n)

def quotedScalar (double : Bool) : Scan ScalarText := do
  let start ← Scan.mark
  Scan.advance
  let body ← quotedBody double start (← Scan.fuel)
  Scan.advance
  return .ofPoints body

end EditorInsight.Yaml
