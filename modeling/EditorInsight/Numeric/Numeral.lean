import EditorInsight.Numeric.Double
import EditorInsight.Text.Basic

/-!
# Reading numbers

Digits of a base, and decimals with a point and an exponent. Neither takes a sign or blanks.
-/

namespace EditorInsight.Numeral

def digit? (c : Char) : Option Nat :=
  if c.isDigit then some (c.toNat - '0'.toNat)
  else if 'a' ≤ c && c ≤ 'z' then some (c.toNat - 'a'.toNat + 10)
  else if 'A' ≤ c && c ≤ 'Z' then some (c.toNat - 'A'.toNat + 10)
  else none

/-- The digits in a base, if there are any and all are below it. -/
def natural? (radix : Nat) (t : Text) : Option Nat :=
  if t = [] then none
  else t.foldlM (fun n c => (digit? c).bind fun d => if d < radix then some (n * radix + d) else none) 0

def isSign (c : Char) : Bool := c == '-' || c == '+'

def unsigned : Text → Text
  | [] => []
  | c :: r => if isSign c then r else c :: r

def isNegative (t : Text) : Bool := t.head? = some '-'

def withSign (isNegative : Bool) (n : Int) : Int := if isNegative then -n else n

/-- The most decimal digits that a whole number may be read from or shown with. -/
def maxDigits : Nat := 4300

/-- The double nearest to the digits times a power of ten. Exponents beyond every double are not
computed. -/
def nearest (digits : Text) (exponent : Int) : Double :=
  let n := (natural? 10 digits).getD 0
  if n = 0 then .finite 0
  else
    let size : Int := (Text.ofNat n).length + exponent
    if size > 310 then .infinite false
    else if size < -330 then .finite 0
    else Double.ofDecimal false n exponent

/-- A decimal: digits with a point among or around them, and an exponent. -/
def decimal? (t : Text) : Option Double := do
  let whole := t.takeWhile Char.isDigit
  let rest := t.dropWhile Char.isDigit
  let (fraction, rest) := match rest with
    | '.' :: r => (r.takeWhile Char.isDigit, r.dropWhile Char.isDigit)
    | _ => ([], rest)
  if whole = [] && fraction = [] then none
  let exponent : Int ← match rest with
    | [] => some 0
    | e :: r =>
      if e == 'e' || e == 'E' then (natural? 10 (unsigned r)).map fun n => withSign (isNegative r) n
      else none
  return nearest (whole ++ fraction) (exponent - fraction.length)

end EditorInsight.Numeral
