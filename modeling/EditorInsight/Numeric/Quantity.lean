import EditorInsight.Numeric.Double

/-!
# Whole and fractional quantities

A duration or a clock reading is either a whole number of any size or a double. Whole numbers are
added exactly; as soon as a double is involved the sum is a double. Comparison is exact across the
two.
-/

namespace EditorInsight

inductive Quantity where
  | whole (value : Int)
  | fractional (value : Double)
  deriving DecidableEq

namespace Quantity

/-- Why quantities of different kinds cannot be added. -/
inductive Fault where
  /-- A whole number beyond all doubles. -/
  | tooLarge
  deriving DecidableEq

def Fault.message : Fault → String
  | tooLarge => "int too large to convert to float"

/-- The nearest double, unless the number is beyond all of them. -/
def toDouble : Quantity → Except Fault Double
  | whole n => match Double.ofInt n with
    | .infinite _ => .error .tooLarge
    | x => .ok x
  | fractional x => .ok x

def add : Quantity → Quantity → Except Fault Quantity
  | whole m, whole n => .ok (whole (m + n))
  | p, q => do return fractional ((← p.toDouble).add (← q.toDouble))

def sub : Quantity → Quantity → Except Fault Quantity
  | whole m, whole n => .ok (whole (m - n))
  | p, q => do return fractional ((← p.toDouble).sub (← q.toDouble))

def lt : Quantity → Quantity → Bool
  | whole m, whole n => m < n
  | whole m, fractional y => y.gtRat m
  | fractional x, whole n => x.ltRat n
  | fractional x, fractional y => x.lt y

end Quantity
end EditorInsight
