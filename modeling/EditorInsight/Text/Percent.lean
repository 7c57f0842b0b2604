import EditorInsight.Text.Utf8

/-!
# Percent-encoding

A percent sign and two hexadecimal digits stand for one byte. Escapes are decoded within each run of
ASCII characters, whose bytes are then read as UTF-8; characters beyond ASCII stay as they are.
A percent sign without two digits after it stands for itself.
-/

namespace EditorInsight.Text

def hexDigit? (c : Char) : Option Nat :=
  if '0' ≤ c && c ≤ '9' then some (c.toNat - '0'.toNat)
  else if 'a' ≤ c && c ≤ 'f' then some (c.toNat - 'a'.toNat + 10)
  else if 'A' ≤ c && c ≤ 'F' then some (c.toNat - 'A'.toNat + 10)
  else none

def hexByte? (a b : Char) : Option UInt8 := do
  return UInt8.ofNat ((← hexDigit? a) * 16 + (← hexDigit? b))

/-- The bytes of ASCII text with escapes. -/
def percentBytes : Text → List UInt8
  | '%' :: a :: b :: r =>
    match hexByte? a b with
    | some byte => byte :: percentBytes r
    | none => 37 :: percentBytes (a :: b :: r)
  | c :: r => UInt8.ofNat c.toNat :: percentBytes r
  | [] => []

/-- Decodes the ASCII characters collected so far, last one first. -/
def percentRun (run : Text) : Text := decodeUtf8Lossy (percentBytes run.reverse)

/-- Decodes the text, where `run` holds the ASCII characters just before it, last one first. -/
def percentDecodeFrom (run : Text) : Text → Text
  | [] => percentRun run
  | c :: r =>
    if c.toNat < 128 then percentDecodeFrom (c :: run) r
    else percentRun run ++ c :: percentDecodeFrom [] r

def percentDecode (t : Text) : Text := percentDecodeFrom [] t

/-- Whether a byte is written as itself: letters, digits and `/`, `_`, `.`, `-`, `~`. -/
def isUnreserved (b : UInt8) : Bool :=
  let c := Char.ofNat b.toNat
  b < 128 && (c.isAlphanum || c == '/' || c == '_' || c == '.' || c == '-' || c == '~')

def upperHexDigit (n : Nat) : Char :=
  if n < 10 then Char.ofNat ('0'.toNat + n) else Char.ofNat ('A'.toNat + (n - 10))

/-- The text as unreserved characters and escapes. -/
def percentEncode (t : Text) : Text :=
  (encodeUtf8 t).flatMap fun b =>
    if isUnreserved b then [Char.ofNat b.toNat]
    else ['%', upperHexDigit (b.toNat / 16), upperHexDigit (b.toNat % 16)]

end EditorInsight.Text
