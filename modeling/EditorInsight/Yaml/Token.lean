import EditorInsight.Yaml.Plain
import EditorInsight.Yaml.Property

/-!
# Tokens

A YAML text as a list of tokens. In block context the indentation opens and closes collections, so
that tokens without characters of their own appear. A scalar turns out to be a key only when a
colon follows it on the same line; until then its place is remembered, and the tokens that open the
key are put in there. If the text goes wrong, the tokens before the first undecided key are still
given.
-/

namespace EditorInsight.Yaml

inductive TokenKind where
  | streamEnd
  | directive (d : Directive)
  | documentStart
  | documentEnd
  | blockSequenceStart
  | blockMappingStart
  | blockEnd
  | flowSequenceStart
  | flowSequenceEnd
  | flowMappingStart
  | flowMappingEnd
  | blockEntry
  | flowEntry
  | key
  | value
  | alias (name : Text)
  | anchor (name : Text)
  | tag (name : TagName)
  | scalar (text : ScalarText) (isPlain : Bool)
  deriving DecidableEq

/-- How complaints name a token. -/
def TokenKind.word : TokenKind → Text
  | .streamEnd => "<stream end>"
  | .directive _ => "<directive>"
  | .documentStart => "<document start>"
  | .documentEnd => "<document end>"
  | .blockSequenceStart => "<block sequence start>"
  | .blockMappingStart => "<block mapping start>"
  | .blockEnd => "<block end>"
  | .flowSequenceStart => "["
  | .flowSequenceEnd => "]"
  | .flowMappingStart => "\x7b"
  | .flowMappingEnd => "\x7d"
  | .blockEntry => "-"
  | .flowEntry => ","
  | .key => "?"
  | .value => ":"
  | .alias _ => "<alias>"
  | .anchor _ => "<anchor>"
  | .tag _ => "<tag>"
  | .scalar _ _ => "<scalar>"

structure Token where
  kind : TokenKind
  mark : Mark

/-- A place where a key may have started. -/
structure PossibleKey where
  /-- The number of tokens before it. -/
  position : Nat
  /-- Whether nothing but a key can stand there. -/
  isRequired : Bool
  mark : Mark

structure Scanner where
  spot : Spot
  /-- The tokens so far, the last one first. -/
  tokens : List Token := []
  /-- The number of flow collections that are open. -/
  flowLevel : Nat := 0
  indent : Int := -1
  /-- The indentations around the current one, the innermost first. -/
  indents : List Int := []
  /-- Whether a key may start here. -/
  allowKey : Bool := true
  /-- The possible keys by flow level. -/
  keys : List (Nat × PossibleKey) := []
  isDone : Bool := false

namespace Scanner

def mark (s : Scanner) : Mark := s.spot.mark

def column (s : Scanner) : Int := s.spot.mark.column

def inFlow (s : Scanner) : Bool := s.flowLevel != 0

def emit (s : Scanner) (kind : TokenKind) (mark : Mark) : Scanner :=
  { s with tokens := ⟨kind, mark⟩ :: s.tokens }

/-- Tokens put in before those from a position on. -/
def insert (s : Scanner) (position : Nat) (tokens : List Token) : Scanner :=
  let later := s.tokens.length - position
  { s with tokens := s.tokens.take later ++ tokens.reverse ++ s.tokens.drop later }

def run {α : Type} (s : Scanner) (p : Scan α) : Except Fault (α × Scanner) := do
  let (a, spot) ← StateT.run p s.spot
  return (a, { s with spot })

def fail {α : Type} (s : Scanner) (problem : Text) : Except Fault α :=
  .error (.malformed { problem, mark := s.mark })

/-- The complaint about a place where only a key could stand. -/
def missingColon {α : Type} (s : Scanner) (k : PossibleKey) : Except Fault α :=
  .error (.malformed ⟨some "while scanning a simple key", some k.mark, "could not find expected ':'",
    s.mark⟩)

/-- The length beyond which a key is none. -/
def maxKeyLength : Nat := 1024

/-- A key ends on the line on which it starts and is not too long. -/
def isStale (s : Scanner) (k : PossibleKey) : Bool :=
  k.mark.line != s.mark.line || s.mark.index - k.mark.index > maxKeyLength

/-- Forgets the possible keys that can no longer be keys. -/
def dropStale (s : Scanner) : Except Fault Scanner :=
  match s.keys.find? fun k => s.isStale k.2 && k.2.isRequired with
  | some k => s.missingColon k.2
  | none => .ok { s with keys := s.keys.filter fun k => !s.isStale k.2 }

def possibleKey? (s : Scanner) : Option PossibleKey :=
  (s.keys.find? fun k => k.1 = s.flowLevel).map Prod.snd

/-- Forgets the possible key of the current flow level. -/
def dropKey (s : Scanner) : Except Fault Scanner :=
  match s.possibleKey? with
  | none => .ok s
  | some k =>
    if k.isRequired then s.missingColon k
    else .ok { s with keys := s.keys.filter fun k => k.1 ≠ s.flowLevel }

/-- Remembers that a key may start here. -/
def saveKey (s : Scanner) : Except Fault Scanner :=
  if s.allowKey then do
    let isRequired := !s.inFlow && s.indent == s.column
    let s ← s.dropKey
    return { s with keys := s.keys ++ [(s.flowLevel, ⟨s.tokens.length, isRequired, s.mark⟩)] }
  else .ok s

/-- Closes indentations that are wider than the column: the one left, those around it, and how many were
closed. -/
def closed (column : Int) : Int → List Int → Int × List Int × Nat
  | indent, [] => (indent, [], 0)
  | indent, outer :: r =>
    if indent > column then
      let (i, rest, n) := closed column outer r
      (i, rest, n + 1)
    else (indent, outer :: r, 0)

/-- Ends the block collections that are indented more than the column. -/
def unwind (s : Scanner) (column : Int) : Scanner :=
  if s.inFlow then s
  else
    let (indent, indents, n) := closed column s.indent s.indents
    { s with indent, indents, tokens := List.replicate n ⟨.blockEnd, s.mark⟩ ++ s.tokens }

/-- Opens a block collection if the column is beyond the indentation. -/
def opens (s : Scanner) (column : Int) : Bool := s.indent < column

def indentTo (s : Scanner) (column : Int) : Scanner :=
  if s.opens column then { s with indents := s.indent :: s.indents, indent := column } else s

/-- Blanks, comments and line ends before the next token. -/
def skipToToken (s : Scanner) : Nat → Except Fault Scanner
  | 0 => .ok s
  | n + 1 => do
    match ← s.run (do Scan.skipComment; Scan.lineBreak) with
    | ([], s) => return s
    | (_, s) => skipToToken { s with allowKey := s.allowKey || !s.inFlow } n

/-- A token of one character, or of more. -/
def indicator (s : Scanner) (kind : TokenKind) (length : Nat) : Except Fault Scanner := do
  return (← (s.emit kind s.mark).run (Scan.advance length)).2

def scanDirective (s : Scanner) : Except Fault Scanner := do
  let s ← (s.unwind (-1)).dropKey
  let (d, s') ← s.run directive
  return { s'.emit (.directive d) s.mark with allowKey := false }

def scanSeparator (s : Scanner) (kind : TokenKind) : Except Fault Scanner := do
  let s ← (s.unwind (-1)).dropKey
  return { ← s.indicator kind 3 with allowKey := false }

def scanStreamEnd (s : Scanner) : Except Fault Scanner := do
  let s ← (s.unwind (-1)).dropKey
  return { s.emit .streamEnd s.mark with allowKey := false, keys := [], isDone := true }

def scanFlowStart (s : Scanner) (kind : TokenKind) : Except Fault Scanner := do
  let s ← s.saveKey
  return { ← s.indicator kind 1 with allowKey := true, flowLevel := s.flowLevel + 1 }

def scanFlowEnd (s : Scanner) (kind : TokenKind) : Except Fault Scanner := do
  let s ← s.dropKey
  return { ← s.indicator kind 1 with allowKey := false, flowLevel := s.flowLevel - 1 }

def scanFlowEntry (s : Scanner) : Except Fault Scanner := do
  let s ← s.dropKey
  return { ← s.indicator .flowEntry 1 with allowKey := true }

/-- Opens a block collection at this column, where a key may start. -/
def openBlock (s : Scanner) (kind : TokenKind) (what : Text) : Except Fault Scanner :=
  if s.inFlow then .ok s
  else if !s.allowKey then s.fail (what ++ " are not allowed here")
  else if s.opens s.column then .ok ((s.indentTo s.column).emit kind s.mark)
  else .ok s

def scanBlockEntry (s : Scanner) : Except Fault Scanner := do
  let s ← s.openBlock .blockSequenceStart "sequence entries"
  let s ← s.dropKey
  return { ← s.indicator .blockEntry 1 with allowKey := true }

def scanKey (s : Scanner) : Except Fault Scanner := do
  let s ← s.openBlock .blockMappingStart "mapping keys"
  let s ← s.dropKey
  return { ← s.indicator .key 1 with allowKey := !s.inFlow }

/-- A colon: what stands before it on its line is its key, if that can be one. -/
def scanValue (s : Scanner) : Except Fault Scanner :=
  match s.possibleKey? with
  | some k =>
    let opening : List Token :=
      if !s.inFlow && s.opens k.mark.column then [⟨.blockMappingStart, k.mark⟩] else []
    let s := s.insert k.position (opening ++ [⟨.key, k.mark⟩])
    let s := { s with keys := s.keys.filter fun k => k.1 ≠ s.flowLevel, allowKey := false }
    let s := if s.inFlow then s else s.indentTo k.mark.column
    s.indicator .value 1
  | none => do
    let s ← s.openBlock .blockMappingStart "mapping values"
    return { ← s.indicator .value 1 with allowKey := !s.inFlow }

/-- An alias, anchor, tag or quoted scalar, any of which may start a key. -/
def scanWord {α : Type} (s : Scanner) (p : Scan α) (kind : α → TokenKind) :
    Except Fault Scanner := do
  let s ← s.saveKey
  let (a, s') ← s.run p
  return { s'.emit (kind a) s.mark with allowKey := false }

def scanPlain (s : Scanner) : Except Fault Scanner := do
  let s ← s.saveKey
  let ((text, lineEnded), s') ← s.run (plainScalar s.inFlow s.indent)
  return { s'.emit (.scalar ⟨text, none⟩ true) s.mark with allowKey := lineEnded }

def scanBlockScalar (s : Scanner) (folded : Bool) : Except Fault Scanner := do
  let s ← s.dropKey
  let (text, s') ← s.run (blockScalar folded s.indent)
  return { s'.emit (.scalar ⟨text, none⟩ false) s.mark with allowKey := true }

/-- Whether a plain scalar may start here. -/
def startsPlain (s : Scanner) : Bool :=
  let c := s.spot.look 0
  !(isEndOrBlank c || "-?:,[]\x7b\x7d#&*!|>'\"%@`".toList.elem c) ||
    (!isEndOrBlank (s.spot.look 1) && (c == '-' || (!s.inFlow && (c == '?' || c == ':'))))

/-- Reads the next token and those that its position brings with it. -/
def next (s : Scanner) : Except Fault Scanner := do
  let s := if s.mark.index = 0 && s.spot.look 0 = '\ufeff' then { s with spot := s.spot.step } else s
  let s ← (← s.skipToToken (s.spot.rest.length + 1)).dropStale
  let s := s.unwind s.column
  let c := s.spot.look 0
  let standsAlone ←
    if "-?:".toList.elem c then do pure (isEndOrBlank (← s.run (Scan.peek 1)).1) else pure false
  let atSeparator ←
    if s.column = 0 && (c = '-' || c = '.') then do pure (← s.run Scan.atSeparator).1 else pure false
  if isEnd c then s.scanStreamEnd
  else if c = '%' && s.column = 0 then s.scanDirective
  else if c = '-' && atSeparator then s.scanSeparator .documentStart
  else if c = '.' && atSeparator then s.scanSeparator .documentEnd
  else if c = '[' then s.scanFlowStart .flowSequenceStart
  else if c = '\x7b' then s.scanFlowStart .flowMappingStart
  else if c = ']' then s.scanFlowEnd .flowSequenceEnd
  else if c = '\x7d' then s.scanFlowEnd .flowMappingEnd
  else if c = ',' then s.scanFlowEntry
  else if c = '-' && standsAlone then s.scanBlockEntry
  else if c = '?' && (s.inFlow || standsAlone) then s.scanKey
  else if c = ':' && (s.inFlow || standsAlone) then s.scanValue
  else if c = '*' then s.scanWord (anchorName "alias") .alias
  else if c = '&' then s.scanWord (anchorName "anchor") .anchor
  else if c = '!' then s.scanWord tagName .tag
  else if c = '|' && !s.inFlow then s.scanBlockScalar false
  else if c = '>' && !s.inFlow then s.scanBlockScalar true
  else if c = '\'' then s.scanWord (quotedScalar false) (.scalar · false)
  else if c = '"' then s.scanWord (quotedScalar true) (.scalar · false)
  else if s.startsPlain then s.scanPlain
  else .error (.malformed ⟨some "while scanning for the next token", none,
    "found character " ++ quoted c ++ " that cannot start any token", s.mark⟩)

/-- The tokens that are settled: those before the first possible key. -/
def settled (s : Scanner) : List Token :=
  let n := s.keys.foldl (fun n k => min n k.2.position) s.tokens.length
  s.tokens.reverse.take n

/-- Reads the next token, after which the text may already have gone wrong. -/
def advance (s : Scanner) : Except Fault Scanner := do (← s.next).dropStale

/-- All tokens, or those settled before the token that brings the fault. -/
def all (s : Scanner) : Nat → List Token × Option Fault
  | 0 => (s.settled, none)
  | n + 1 =>
    match s.advance with
    | .error f => (s.settled, some f)
    | .ok t => if t.isDone then (t.tokens.reverse, none) else t.all n

end Scanner

/-- The tokens of a text, and the fault that ends them if there is one; `wall` is why the text cannot be
read to its end. -/
def tokens (t : Text) (wall : Option Fault) : List Token × Option Fault :=
  Scanner.all { spot := { rest := t, wall } } (t.length + 1)

end EditorInsight.Yaml
