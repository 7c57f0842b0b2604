import EditorInsight.Text.Word
import EditorInsight.Text.UnprintableTable

/-!
# Quoted text

Text in messages is written between single quotes, or between double quotes if it has a single
quote and no double quote. Backslash, the chosen quote, tab, line feed and carriage return take a
backslash; other characters without a printed form are written by their code point.
-/

namespace EditorInsight.Text

/-- Whether a character is written as itself inside quotes. -/
def isPrintable (c : Char) : Bool :=
  let n := c.val.toNat
  if n < 128 then 32 ≤ n && n < 127 else !inRanges unprintableRanges n

/-- The number in base sixteen, with at least `width` lower-case digits. -/
def hex (width n : Nat) : Text :=
  let ds := Nat.toDigits 16 n
  List.replicate (width - ds.length) '0' ++ ds

/-- The backslash form of a code point. -/
def pointEscape (n : Nat) : Text :=
  if n < 0x100 then "\\x" ++ hex 2 n
  else if n < 0x10000 then "\\u" ++ hex 4 n
  else "\\U" ++ hex 8 n

def codeEscape (c : Char) : Text := pointEscape c.val.toNat

/-- One character between quotes `q`. -/
def quoteChar (q c : Char) : Text :=
  if c = q || c = '\\' then ['\\', c]
  else if c = '\t' then "\\t"
  else if c = '\n' then "\\n"
  else if c = '\r' then "\\r"
  else if isPrintable c then [c]
  else codeEscape c

/-- The text between quotes. -/
def quote (t : Text) : Text :=
  let q := if t.any (· == '\'') && !t.any (· == '"') then '"' else '\''
  q :: t.flatMap (quoteChar q) ++ [q]

end EditorInsight.Text
