/-!
# Double-precision numbers

A finite number is kept as the rational it stands for; arithmetic is exact arithmetic followed by
rounding to the nearest number with 53 significant bits, a tie going to the even one. Zero keeps
its sign.
-/

namespace EditorInsight

/-- A binary64 number. -/
inductive Double where
  | nan
  | infinite (negative : Bool)
  | negativeZero
  | finite (value : Rat)
  deriving DecidableEq

namespace Double

/-- The quotient rounded to the nearest integer, a tie going to the even one. -/
def divNearest (num den : Nat) : Nat :=
  let q := num / den
  let r := num % den
  if 2 * r < den then q
  else if den < 2 * r then q + 1
  else if q % 2 = 0 then q else q + 1

/-- The exponent of the last place of a number near `num / den`: 52 below its leading bit, and not
below the least exponent. -/
def lastPlace (num den : Nat) : Int :=
  let e : Int := (Nat.log2 num : Int) - (Nat.log2 den : Int) - 53
  let tooSmall :=
    if 0 ≤ e then num < den * Nat.pow 2 (e.toNat + 53)
    else num * Nat.pow 2 (-e).toNat < den * Nat.pow 2 53
  max (if tooSmall then e else e + 1) (-1074)

/-- The nearest double to a positive rational, overflow included. -/
def roundPositive (negative : Bool) (num den : Nat) : Double :=
  let e := lastPlace num den
  let m :=
    if 0 ≤ e then divNearest num (den * Nat.pow 2 e.toNat)
    else divNearest (num * Nat.pow 2 (-e).toNat) den
  let value : Rat :=
    if 0 ≤ e then ((m * Nat.pow 2 e.toNat : Nat) : Rat) else mkRat m (Nat.pow 2 (-e).toNat)
  if value = 0 then (if negative then negativeZero else finite 0)
  else if (Nat.pow 2 1024 : Rat) ≤ value then infinite negative
  else finite (if negative then -value else value)

def ofRat (q : Rat) : Double :=
  if q = 0 then finite 0 else roundPositive (q < 0) q.num.natAbs q.den

def ofInt (n : Int) : Double := ofRat n

/-- The nearest double to `digits * 10 ^ exponent`, with a sign of its own. -/
def ofDecimal (negative : Bool) (digits : Nat) (exponent : Int) : Double :=
  if digits = 0 then (if negative then negativeZero else finite 0)
  else if 0 ≤ exponent then roundPositive negative (digits * Nat.pow 10 exponent.toNat) 1
  else roundPositive negative digits (Nat.pow 10 (-exponent).toNat)

def toRat? : Double → Option Rat
  | finite q => some q
  | negativeZero => some 0
  | _ => none

def isNegative : Double → Bool
  | finite q => q < 0
  | negativeZero => true
  | infinite s => s
  | nan => false

def neg : Double → Double
  | nan => nan
  | infinite s => infinite (!s)
  | negativeZero => finite 0
  | finite q => if q = 0 then negativeZero else finite (-q)

def add (x y : Double) : Double :=
  match x, y with
  | nan, _ => nan
  | _, nan => nan
  | infinite s, infinite t => if s = t then infinite s else nan
  | infinite s, _ => infinite s
  | _, infinite t => infinite t
  | negativeZero, negativeZero => negativeZero
  | x, y => ofRat (x.toRat?.getD 0 + y.toRat?.getD 0)

def sub (x y : Double) : Double := add x (neg y)

def mul (x y : Double) : Double :=
  match x, y with
  | nan, _ => nan
  | _, nan => nan
  | infinite s, y => if y.toRat? = some 0 then nan else infinite (s != y.isNegative)
  | x, infinite t => if x.toRat? = some 0 then nan else infinite (x.isNegative != t)
  | x, y =>
    match ofRat (x.toRat?.getD 0 * y.toRat?.getD 0) with
    | finite q => if q = 0 && x.isNegative != y.isNegative then negativeZero else finite q
    | z => z

/-- Strictly below a rational; a number that is not a number is below nothing. -/
def ltRat (x : Double) (q : Rat) : Bool :=
  match x with
  | nan => false
  | infinite s => s
  | negativeZero => 0 < q
  | finite p => p < q

def gtRat (x : Double) (q : Rat) : Bool :=
  match x with
  | nan => false
  | infinite s => !s
  | negativeZero => q < 0
  | finite p => q < p

def lt (x y : Double) : Bool :=
  match y with
  | nan => false
  | infinite t => match x with
    | nan => false
    | infinite s => s && !t
    | _ => !t
  | negativeZero => x.ltRat 0
  | finite q => x.ltRat q

end Double
end EditorInsight
