import EditorInsight.Text.Utf8
import EditorInsight.Yaml.Quoted

/-!
# Anchors, tags and directives

The small languages around the nodes: names after `&` and `*`, tags after `!`, and the directives
before a document.
-/

namespace EditorInsight.Yaml

/-- A tag as it is written: a handle, unless the tag is written in full, and the rest. -/
structure TagName where
  handle : Option Text
  suffix : Text
  deriving DecidableEq

inductive Directive where
  | version (major minor : Nat)
  | tagHandle (handle expansion : Text)
  | other
  deriving DecidableEq

/-- The characters of anchor, handle and directive names. -/
def isNameChar (c : Char) : Bool := c.isAlphanum || c == '-' || c == '_'

/-- A name after the sign of an anchor or alias. -/
def anchorName (kind : Text) : Scan Text := do
  let start ← Scan.mark
  Scan.advance
  let name ← Scan.takeWhile isNameChar
  let c ← Scan.peek
  if name = [] || !(isEndOrBlank c || "?:,]\x7d%@`".toList.elem c) then
    Scan.complain ("while scanning an " ++ kind) start
      ("expected alphabetic or numeric character, but found " ++ quoted c)
  return name

/-- A tag handle, such as `!` or `!name!`; `kind` says what it is part of. -/
def tagHandle (kind : Text) (start : Mark) : Scan Text := do
  let c ← Scan.peek
  if c != '!' then
    Scan.complain ("while scanning a " ++ kind) start ("expected '!', but found " ++ quoted c)
  Scan.advance
  if (← Scan.peek) == ' ' then return ['!']
  let name ← Scan.takeWhile isNameChar
  let c ← Scan.peek
  if c != '!' then
    Scan.complain ("while scanning a " ++ kind) start ("expected '!', but found " ++ quoted c)
  Scan.advance
  return '!' :: name ++ ['!']

def isUriChar (c : Char) : Bool := c.isAlphanum || "-;/?:@&=+$,_.!~*'()[]".toList.elem c

/-- A run of bytes written as a percent sign and two hexadecimal digits. -/
def uriBytes (kind : Text) (start : Mark) : Nat → Scan (List UInt8)
  | 0 => return []
  | n + 1 => do
    if (← Scan.peek) != '%' then return []
    Scan.advance
    let digits := ((← get).rest.take 2).takeWhile isHex
    if digits.length < 2 then
      Scan.complain ("while scanning a " ++ kind) start
        ("expected URI escape sequence of 2 hexadecimal numbers, but found " ++
          quoted (← Scan.peek digits.length))
    Scan.advance 2
    return UInt8.ofNat (hexNumber digits) :: (← uriBytes kind start n)

def undecodable (f : Text.Utf8Fault) : Text :=
  let place : Text :=
    if f.stop = f.start + 1 then
      "byte 0x" ++ Text.hex 2 f.byte.toNat ++ " in position " ++ Text.ofNat f.start
    else "bytes in position " ++ Text.ofNat f.start ++ "-" ++ Text.ofNat (f.stop - 1)
  let flaw : Text := match f.flaw with
    | .startByte => "invalid start byte"
    | .continuation => "invalid continuation byte"
    | .endOfData => "unexpected end of data"
  "'utf-8' codec can't decode " ++ place ++ ": " ++ flaw

/-- The pieces of a tag written as an address. -/
def uriPieces (kind : Text) (start : Mark) : Nat → Scan Text
  | 0 => return []
  | n + 1 => do
    let run ← Scan.takeWhile isUriChar
    if (← Scan.peek) == '%' then
      let here ← Scan.mark
      let bytes ← uriBytes kind start (← Scan.fuel)
      match Text.utf8Fault? 0 none bytes with
      | some f =>
        throw (.malformed ⟨some ("while scanning a " ++ kind), some start, undecodable f, here⟩)
      | none => return run ++ Text.decodeUtf8Lossy bytes ++ (← uriPieces kind start n)
    else return run

/-- The suffix of a tag, or the text that a handle stands for. -/
def tagUri (kind : Text) (start : Mark) : Scan Text := do
  let c ← Scan.peek
  let uri ← uriPieces kind start (← Scan.fuel)
  if !(isUriChar c || c == '%') then
    Scan.complain ("while parsing a " ++ kind) start ("expected URI, but found " ++ quoted c)
  return uri

/-- A tag, with its exclamation mark still ahead. -/
def tagName : Scan TagName := do
  let start ← Scan.mark
  let next ← Scan.peek 1
  let tag : TagName ←
    if next == '<' then do
      Scan.advance 2
      let suffix ← tagUri "tag" start
      let c ← Scan.peek
      if c != '>' then
        Scan.complain "while parsing a tag" start ("expected '>', but found " ++ quoted c)
      Scan.advance
      pure ⟨none, suffix⟩
    else if isEndOrBlank next then do
      Scan.advance
      pure ⟨none, ['!']⟩
    else do
      let word := ((← get).rest.drop 1).takeWhile fun c => !isEndOrSpace c
      let handle ← if word.any (· == '!') then tagHandle "tag" start else do
        Scan.advance
        pure ['!']
      let suffix ← tagUri "tag" start
      pure ⟨some handle, suffix⟩
  let c ← Scan.peek
  if !isEndOrSpace c then
    Scan.complain "while scanning a tag" start ("expected ' ', but found " ++ quoted c)
  return tag

/-- Fails inside the directive that began at `start`. -/
def complainDirective {α : Type} (start : Mark) (expected : Text) (found : Char) : Scan α :=
  Scan.complain "while scanning a directive" start
    ("expected " ++ expected ++ ", but found " ++ quoted found)

def directiveName (start : Mark) : Scan Text := do
  let name ← Scan.takeWhile isNameChar
  let c ← Scan.peek
  if name = [] || !isEndOrSpace c then
    complainDirective start "alphabetic or numeric character" c
  return name

def versionNumber (start : Mark) : Scan Nat := do
  let digits ← Scan.takeWhile Char.isDigit
  if digits = [] then complainDirective start "a digit" (← Scan.peek)
  return digits.foldl (fun n d => n * 10 + (d.toNat - '0'.toNat)) 0

def versionValue (start : Mark) : Scan Directive := do
  Scan.skipSpaces
  let major ← versionNumber start
  let c ← Scan.peek
  if c != '.' then complainDirective start "a digit or '.'" c
  Scan.advance
  let minor ← versionNumber start
  let c ← Scan.peek
  if !isEndOrSpace c then complainDirective start "a digit or ' '" c
  return .version major minor

def tagHandleValue (start : Mark) : Scan Directive := do
  Scan.skipSpaces
  let handle ← tagHandle "directive" start
  let c ← Scan.peek
  if c != ' ' then complainDirective start "' '" c
  Scan.skipSpaces
  let expansion ← tagUri "directive" start
  let c ← Scan.peek
  if !isEndOrSpace c then complainDirective start "' '" c
  return .tagHandle handle expansion

/-- A directive, with its percent sign still ahead, to the end of its line. -/
def directive : Scan Directive := do
  let start ← Scan.mark
  Scan.advance
  let name ← directiveName start
  let value ←
    if name = "YAML".toList then versionValue start
    else if name = "TAG".toList then tagHandleValue start
    else do
      let _ ← Scan.takeWhile fun c => !isEndOrBreak c
      pure .other
  Scan.skipComment
  let c ← Scan.peek
  if !isEndOrBreak c then complainDirective start "a comment or a line break" c
  let _ ← Scan.lineBreak
  return value

end EditorInsight.Yaml
