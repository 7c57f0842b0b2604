import EditorInsight.Numeric.Double
import EditorInsight.Text.Basic

/-!
# The shortest decimal form of a double

A finite double is written with the fewest digits that read back as the same number, the nearest
such decimal if there are several. The digits stand positionally while the leading one has a place
value from 10⁻⁴ to 10¹⁵, and with an exponent of at least two digits otherwise.
-/

namespace EditorInsight.Double

/-- The greatest `e` with `10 ^ e ≤ q`, for a positive `q` not below `10 ^ (-fuel)`. -/
def decimalExponent (q : Rat) : Nat → Int
  | 0 => 0
  | fuel + 1 => if 1 ≤ q then ((Nat.toDigits 10 q.floor.toNat).length : Int) - 1
      else decimalExponent (q * 10) fuel - 1

/-- The two decimals with last place `10 ^ p` next to `q`, the nearer one first. -/
def neighbours (q : Rat) (p : Int) : List Nat :=
  let s := if 0 ≤ p then q / (Nat.pow 10 p.toNat : Rat) else q * (Nat.pow 10 (-p).toNat : Rat)
  let lo := s.floor.toNat
  let below := s - (lo : Rat)
  if below * 2 < 1 || (below * 2 = 1 && lo % 2 = 0) then [lo, lo + 1] else [lo + 1, lo]

/-- The digits and the place of the last one, for `17 - more` digits at first. -/
def shortestFrom (x : Double) (q : Rat) (e : Int) : Nat → Nat × Int
  | 0 => ((neighbours q (e - 16)).headD 0, e - 16)
  | more + 1 =>
    let p := e - (16 - (more + 1 : Int))
    match (neighbours q p).find? fun d => ofDecimal false d p == x with
    | some d => (d, p)
    | none => shortestFrom x q e more

/-- Drops zeros at the end, each of which moves the last place up. -/
def dropZeros (d : Nat) (p : Int) : Nat → Nat × Int
  | 0 => (d, p)
  | fuel + 1 => if d % 10 = 0 && d ≠ 0 then dropZeros (d / 10) (p + 1) fuel else (d, p)

/-- Digits and last place of the shortest decimal that reads back as the positive number `q`. -/
def shortest (q : Rat) : Nat × Int :=
  let (d, p) := shortestFrom (finite q) q (decimalExponent q 400) 16
  dropZeros d p 20

/-- Text of a positive decimal in the notation of this module. -/
def renderDecimal (d : Nat) (p : Int) : Text :=
  let ds := Text.ofNat d
  let lead : Int := p + ds.length - 1
  if lead < -4 || 16 ≤ lead then
    let mantissa := match ds with
      | [] => []
      | [c] => [c]
      | c :: r => c :: '.' :: r
    let e := Text.ofNat lead.natAbs
    mantissa ++ ['e', if lead < 0 then '-' else '+'] ++ (if e.length < 2 then '0' :: e else e)
  else if 0 ≤ p then ds ++ List.replicate p.toNat '0' ++ ".0"
  else if 0 ≤ lead then
    ds.take (lead.toNat + 1) ++ ['.'] ++ ds.drop (lead.toNat + 1)
  else "0." ++ List.replicate ((-lead).toNat - 1) '0' ++ ds

def text : Double → Text
  | nan => "nan"
  | infinite s => if s then "-inf" else "inf"
  | negativeZero => "-0.0"
  | finite q =>
    if q = 0 then "0.0"
    else
      let (d, p) := shortest (if q < 0 then -q else q)
      (if q < 0 then ['-'] else []) ++ renderDecimal d p

end EditorInsight.Double
