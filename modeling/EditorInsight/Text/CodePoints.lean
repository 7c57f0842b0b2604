import EditorInsight.Text.Quoted

/-!
# Code points that are no characters

An escape may name half of a surrogate pair, which is no character of its own. A text with such
halves is a list of code points; as characters, two halves that belong together are one and a single
half is replaced.
-/

namespace EditorInsight.Text

/-- Whether a code point is half of a pair. -/
def isSurrogate (n : Nat) : Bool := 0xD800 ≤ n && n < 0xE000

/-- The character of two halves that belong together. -/
def pairChar? (high low : Nat) : Option Char :=
  if 0xD800 ≤ high && high < 0xDC00 && 0xDC00 ≤ low && low < 0xE000 then
    some (Char.ofNat (0x10000 + (high - 0xD800) * 0x400 + (low - 0xDC00)))
  else none

/-- The character of one code point. -/
def pointChar (n : Nat) : Char := if isSurrogate n then Char.ofNat 0xFFFD else Char.ofNat n

/-- The characters of a list of code points. -/
def ofPoints : List Nat → Text
  | high :: low :: r =>
    match pairChar? high low with
    | some c => c :: ofPoints r
    | none => pointChar high :: ofPoints (low :: r)
  | [n] => [pointChar n]
  | [] => []

/-- The code points between quotes, where halves of pairs are written by their numbers. -/
def quotePoints (points : List Nat) : Text :=
  let has (c : Char) : Bool := points.any (· == c.toNat)
  let q := if has '\'' && !has '"' then '"' else '\''
  q :: points.flatMap (fun n => if isSurrogate n then pointEscape n else quoteChar q (Char.ofNat n)) ++
    [q]

end EditorInsight.Text
