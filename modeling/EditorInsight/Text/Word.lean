import EditorInsight.Text.Basic
import EditorInsight.Text.AlphanumericTable

/-!
# Word characters

A word character is an underscore or an alphanumeric character of any script. A word boundary
lies between a word character and anything else, the ends of the text included.
-/

namespace EditorInsight.Text

/-- Whether a code point lies in one of the closed ranges. -/
def inRanges (ranges : List (Nat × Nat)) (n : Nat) : Bool :=
  ranges.any fun r => r.1 ≤ n && n ≤ r.2

def isWordChar (c : Char) : Bool :=
  c.isAlphanum || c == '_' || (128 ≤ c.val.toNat && inRanges alphanumericRanges c.val.toNat)

/-- Whether the text starts with a word character. -/
def startsWord : Text → Bool
  | [] => false
  | c :: _ => isWordChar c

/-- Whether a word boundary lies between the character `before`, if any, and `rest`. -/
def isBoundary (before : Option Char) (rest : Text) : Bool :=
  (before.any isWordChar) != startsWord rest

end EditorInsight.Text
