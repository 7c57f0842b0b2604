import EditorInsight.Data.Value

/-!
# The order of a set

A set has no order of its own. The numbers in one are shown by their places in a table of a power of
two of places: each goes to the place that its residue gives, or on to another one if that is taken.
Other members are shown as they come.
-/

namespace EditorInsight.Placement

/-- A Mersenne prime. Equal numbers have one residue by it, be they whole or not. -/
def modulus : Nat := 2305843009213693951

/-- The inverse of a power of two; two to the power of 61 leaves one. -/
def inverseOfPower (exponent : Nat) : Nat := Nat.pow 2 ((61 - exponent % 61) % 61)

/-- The residue with the sign of the number, where minus one is not used. -/
def signed (isNegative : Bool) (residue : Nat) : Int :=
  if !isNegative then residue else if residue = 1 then -2 else -residue

/-- The residue of a number; what is not a number has none. -/
def residue? : Quantity → Option Int
  | .whole n => some (signed (n < 0) (n.natAbs % modulus))
  | .fractional (.infinite isNegative) => some (signed isNegative 314159)
  | .fractional x => x.toRat?.map fun q =>
      signed (q < 0) (q.num.natAbs * inverseOfPower q.den.log2 % modulus)

/-- The least power of two, from `size` on, that is more than `count`. -/
def powerAbove (count size : Nat) : Nat → Nat
  | 0 => size
  | n + 1 => if count < size then size else powerAbove count (size * 2) n

def placesFor (count : Nat) : Nat := if count < 5 then 8 else powerAbove (2 * count) 8 count

/-- The first place that is not taken from `i` on, among `more` beyond it. -/
def freeFrom? (taken : List Nat) (i more : Nat) : Option Nat :=
  ((List.range (more + 1)).map (i + ·)).find? fun j => !taken.contains j

/-- The place for a number: from `i` on, and if nothing near is free, further on by the higher digits
of its residue. -/
def place (taken : List Nat) (places i higher : Nat) : Nat → Nat
  | 0 => i
  | n + 1 =>
    match freeFrom? taken i (if i + 9 < places then 9 else 0) with
    | some j => j
    | none =>
      let higher := higher / 32
      place taken places ((i * 5 + 1 + higher) % places) higher n

/-- The members with their places, if all are numbers. -/
def placed? (members : List Value) : Option (List (Nat × Value)) :=
  let places := placesFor members.length
  members.foldlM (fun placed v => do
    let residue ← v.numeric?.bind residue?
    let code := (residue.emod 18446744073709551616).toNat
    let i := place (placed.map Prod.fst) places (code % places) code (places + 64)
    return placed ++ [(i, v)]) []

/-- The members as they are shown. -/
def order (members : List Value) : List Value :=
  match placed? members with
  | none => members
  | some placed => (placed.mergeSort fun a b => a.1 ≤ b.1).map Prod.snd

end EditorInsight.Placement
