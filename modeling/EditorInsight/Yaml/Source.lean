import EditorInsight.Text.Utf8
import EditorInsight.Yaml.Fault

/-!
# The text of a file

A file is read in blocks, the first two at once and each further one when it is needed. So a fault
in a block, be it bytes that are not UTF-8 or a character that no text may hold, does not show
before the block is reached. Line ends are line feeds after reading.
-/

namespace EditorInsight.Yaml

/-- The characters that a text may hold. -/
def isAcceptable (c : Char) : Bool :=
  let n := c.val
  c == '\t' || c == '\n' || c == '\r' || (0x20 ≤ n && n ≤ 0x7e) || n == 0x85 ||
    (0xa0 ≤ n && n ≤ 0xd7ff) || (0xe000 ≤ n && n ≤ 0xfffd) || 0x10000 ≤ n

/-- A text as far as it can be read, and why it cannot be read further. -/
structure Source where
  text : Text
  wall : Option Fault := none

namespace Source

/-- The characters in a block. -/
def blockSize : Nat := 4096

/-- The bytes that are decoded at once. -/
def chunkSize : Nat := 8192

/-- The characters that are read before a character in need can fail: whole blocks, and none if the
first two are not whole. -/
def readable (count : Nat) : Nat :=
  let blocks := count / blockSize
  if blocks < 2 then 0 else blocks * blockSize

/-- The text up to a fault. -/
def upTo (t : Text) (count : Nat) (fault : Fault) : Source :=
  ⟨t.take (readable count), some fault⟩

/-- The characters of well-formed bytes; those of a character that is not complete are left out. -/
def decoded (bytes : List UInt8) : Text := (Text.scalars none bytes).filterMap id

/-- The bytes that are decoded before bytes turn out to be malformed: the chunks before the one in which
they do, or all if the end shows it. -/
def decodedBefore : Text.Utf8Fault → Nat
  | ⟨_, start, _, .startByte⟩ => start / chunkSize * chunkSize
  | ⟨_, _, stop, .continuation⟩ => stop / chunkSize * chunkSize
  | ⟨_, _, stop, .endOfData⟩ => stop

/-- The text before bytes turn out to be malformed. A carriage return at its end is held back. -/
def beforeMalformed (bytes : List UInt8) (fault : Text.Utf8Fault) : Text :=
  let t := decoded (bytes.take (decodedBefore fault))
  Text.universalNewlines (if t.getLast? = some '\r' then t.dropLast else t)

/-- A text that holds only what a text may hold, up to the first character that it may not. -/
def checked (s : Source) : Source :=
  let good := s.text.takeWhile isAcceptable
  match s.text.drop good.length with
  | [] => s
  | c :: _ => upTo s.text good.length (.unprintable c good.length)

def ofText (t : Text) : Source := checked ⟨t, none⟩

/-- The text of the bytes of a file. -/
def ofBytes (bytes : List UInt8) : Source :=
  match Text.utf8Fault? 0 none bytes with
  | none => ofText (Text.universalNewlines (decoded bytes))
  | some f =>
    let t := beforeMalformed bytes f
    checked (upTo t t.length .undecodable)

end Source
end EditorInsight.Yaml
