import EditorInsight.Text.Basic

/-!
# UTF-8

Encoding and decoding of text as bytes. The decoder reads byte by byte and reports each longest
malformed sequence once: overlong forms, surrogates and numbers beyond U+10FFFF are malformed. A
strict reading fails on them, a lossy one puts U+FFFD in their place. Bytes that are not UTF-8 can
also be read one character each.
-/

namespace EditorInsight.Text

def encodeChar (c : Char) : List UInt8 :=
  let n := c.val.toNat
  if n < 0x80 then [UInt8.ofNat n]
  else if n < 0x800 then [UInt8.ofNat (0xC0 + n / 64), UInt8.ofNat (0x80 + n % 64)]
  else if n < 0x10000 then
    [UInt8.ofNat (0xE0 + n / 4096), UInt8.ofNat (0x80 + n / 64 % 64), UInt8.ofNat (0x80 + n % 64)]
  else
    [UInt8.ofNat (0xF0 + n / 262144), UInt8.ofNat (0x80 + n / 4096 % 64),
      UInt8.ofNat (0x80 + n / 64 % 64), UInt8.ofNat (0x80 + n % 64)]

def encodeUtf8 (t : Text) : List UInt8 := t.flatMap encodeChar

/-- A character begun: the bits read, how many bytes are missing, and the bounds of the next one. -/
structure PartialChar where
  bits : Nat
  missing : Nat
  least : Nat
  greatest : Nat

/-- What a byte does at the start of a character. -/
inductive LeadByte where
  | complete (c : Char)
  | begun (p : PartialChar)
  | malformed

def leadByte (b : UInt8) : LeadByte :=
  let n := b.toNat
  if n < 0x80 then .complete (Char.ofNat n)
  else if n < 0xC2 then .malformed
  else if n < 0xE0 then .begun ⟨n - 0xC0, 1, 0x80, 0xBF⟩
  else if n = 0xE0 then .begun ⟨0, 2, 0xA0, 0xBF⟩
  else if n = 0xED then .begun ⟨0xD, 2, 0x80, 0x9F⟩
  else if n < 0xF0 then .begun ⟨n - 0xE0, 2, 0x80, 0xBF⟩
  else if n = 0xF0 then .begun ⟨0, 3, 0x90, 0xBF⟩
  else if n < 0xF4 then .begun ⟨n - 0xF0, 3, 0x80, 0xBF⟩
  else if n = 0xF4 then .begun ⟨4, 3, 0x80, 0x8F⟩
  else .malformed

/-- The characters of a byte string; `none` stands for a malformed sequence. -/
def scalars (begun : Option PartialChar) : List UInt8 → List (Option Char)
  | [] => if begun.isSome then [none] else []
  | b :: r =>
    let fresh : Unit → List (Option Char) := fun _ => match leadByte b with
      | .complete c => some c :: scalars none r
      | .begun p => scalars (some p) r
      | .malformed => none :: scalars none r
    match begun with
    | none => fresh ()
    | some p =>
      if p.least ≤ b.toNat && b.toNat ≤ p.greatest then
        let bits := p.bits * 64 + (b.toNat - 0x80)
        if p.missing ≤ 1 then some (Char.ofNat bits) :: scalars none r
        else scalars (some ⟨bits, p.missing - 1, 0x80, 0xBF⟩) r
      else none :: fresh ()

/-- What is wrong with a malformed sequence. -/
inductive Utf8Flaw where
  | startByte
  | continuation
  | endOfData
  deriving DecidableEq

/-- A malformed sequence: its first byte, where it starts, where it stops, and what is wrong. -/
structure Utf8Fault where
  byte : UInt8
  start : Nat
  stop : Nat
  flaw : Utf8Flaw
  deriving DecidableEq

/-- The first malformed sequence; `begun` is a character begun with its first byte and place. -/
def utf8Fault? (index : Nat) (begun : Option (UInt8 × Nat × PartialChar)) :
    List UInt8 → Option Utf8Fault
  | [] => begun.map fun (byte, start, _) => ⟨byte, start, index, .endOfData⟩
  | b :: r =>
    match begun with
    | none =>
      match leadByte b with
      | .complete _ => utf8Fault? (index + 1) none r
      | .begun p => utf8Fault? (index + 1) (some (b, index, p)) r
      | .malformed => some ⟨b, index, index + 1, .startByte⟩
    | some (byte, start, p) =>
      if p.least ≤ b.toNat && b.toNat ≤ p.greatest then
        if p.missing ≤ 1 then utf8Fault? (index + 1) none r
        else utf8Fault? (index + 1) (some (byte, start, ⟨0, p.missing - 1, 0x80, 0xBF⟩)) r
      else some ⟨byte, start, index, .continuation⟩

def decodeUtf8? (bs : List UInt8) : Option Text := (scalars none bs).mapM id

/-- The text of any bytes, with U+FFFD for each malformed sequence. -/
def decodeUtf8Lossy (bs : List UInt8) : Text :=
  (scalars none bs).map (·.getD (Char.ofNat 0xFFFD))

/-- One character for each byte, by its number. -/
def decodeLatin1 (bs : List UInt8) : Text := bs.map fun b => Char.ofNat b.toNat

/-- Every line end becomes one line feed. -/
def universalNewlines : Text → Text
  | [] => []
  | '\r' :: '\n' :: r => '\n' :: universalNewlines r
  | '\r' :: r => '\n' :: universalNewlines r
  | c :: r => c :: universalNewlines r

end EditorInsight.Text
