import EditorInsight.Numeric.Shortest

/-!
# Decimals with a given number of digits

A number rounded to so many places after the point, or to so many digits in all. The exact value is
rounded, and a tie goes to the even digit. Each text is that of a number that is not negative; `full`
keeps the zeros at the end and the point before nothing.
-/

namespace EditorInsight.Rounded

/-- The whole number nearest to `q * 10 ^ places`. -/
def scaled (q : Rat) (places : Int) : Nat :=
  if 0 ≤ places then Double.divNearest (q.num.natAbs * Nat.pow 10 places.toNat) q.den
  else Double.divNearest q.num.natAbs (q.den * Nat.pow 10 (-places).toNat)

/-- So many digits of a number, at least one, and the power of ten of the first. -/
def significant (q : Rat) (count : Nat) : Text × Int :=
  if q = 0 then (List.replicate count '0', 0)
  else
    let e := Double.decimalExponent q 400
    let n := scaled q ((count : Int) - 1 - e)
    if Nat.pow 10 count ≤ n then (Text.ofNat (n / 10), e + 1) else (Text.ofNat n, e)

/-- Digits before and after the point, which is left out if nothing follows it. -/
def withPoint (full : Bool) (whole fraction : Text) : Text :=
  whole ++ if fraction.isEmpty && !full then [] else '.' :: fraction

def withoutZeros (t : Text) : Text := (t.reverse.dropWhile (· == '0')).reverse

def fixed (full : Bool) (places : Nat) (q : Rat) : Text :=
  let ds := Text.ofNat (scaled q places)
  let ds := List.replicate (places + 1 - ds.length) '0' ++ ds
  withPoint full (ds.take (ds.length - places)) (ds.drop (ds.length - places))

/-- A power of ten, with at least two digits. -/
def exponentText (e : Int) : Text :=
  let ds := Text.ofNat e.natAbs
  'e' :: (if e < 0 then '-' else '+') :: List.replicate (2 - ds.length) '0' ++ ds

def scientific (full : Bool) (places : Nat) (q : Rat) : Text :=
  let (ds, e) := significant q (places + 1)
  withPoint full (ds.take 1) (ds.drop 1) ++ exponentText e

/-- The text with so many digits in all; the exponent is written if the point would lie more than four
places before the first digit or behind the last one. -/
def general (full : Bool) (count : Nat) (q : Rat) : Text :=
  let count := max count 1
  let (ds, e) := significant q count
  let trim (t : Text) : Text := if full then t else withoutZeros t
  if e < -4 || count ≤ e then withPoint full (ds.take 1) (trim (ds.drop 1)) ++ exponentText e
  else if 0 ≤ e then withPoint full (ds.take (e.toNat + 1)) (trim (ds.drop (e.toNat + 1)))
  else withPoint full ['0'] (trim (List.replicate ((-e).toNat - 1) '0' ++ ds))

end EditorInsight.Rounded
