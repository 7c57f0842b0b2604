/-!
# Text as a list of code points

Every column, length and position in this library counts code points, so text is a list of
characters. This module has the operations on such lists that know nothing about character
classes: cutting at a separator, joining, replacing and ordering.
-/

namespace EditorInsight

/-- A sequence of Unicode code points. -/
abbrev Text := List Char

instance : Coe String Text := ⟨String.toList⟩

namespace Text

/-- The same characters as a string, for messages and for callers outside the library. -/
def str (t : Text) : String := String.ofList t

/-- Cuts at every element that satisfies `p`; the number of pieces is one more than the cuts. -/
def splitWhere {α : Type} (p : α → Bool) : List α → List (List α)
  | [] => [[]]
  | c :: r =>
    if p c then [] :: splitWhere p r
    else match splitWhere p r with
      | [] => [[c]]
      | s :: ss => (c :: s) :: ss

theorem splitWhere_ne_nil {α : Type} (p : α → Bool) (t : List α) : splitWhere p t ≠ [] := by
  cases t with
  | nil => simp [splitWhere]
  | cons c r =>
    rw [splitWhere]
    split
    · simp
    · split <;> simp

/-- The pieces with `sep` between neighbours. -/
def join (sep : Text) : List Text → Text
  | [] => []
  | [t] => t
  | t :: u :: r => t ++ sep ++ join sep (u :: r)

/-- Cutting at a character and joining with it gives the text back. -/
theorem join_splitWhere (c : Char) (t : Text) :
    join [c] (splitWhere (· == c) t) = t := by
  induction t with
  | nil => rfl
  | cons d r ih =>
    rw [splitWhere]
    by_cases h : d = c
    · subst h
      simp only [beq_self_eq_true, if_true]
      cases hs : splitWhere (· == d) r with
      | nil => exact absurd hs (splitWhere_ne_nil _ _)
      | cons s ss => rw [hs] at ih; simp [join, ih]
    · simp only [beq_iff_eq, h, if_false]
      cases hs : splitWhere (· == c) r with
      | nil => exact absurd hs (splitWhere_ne_nil _ _)
      | cons s ss =>
        rw [hs] at ih
        cases ss with
        | nil => simpa [join] using ih
        | cons u us => simpa [join] using ih

/-- The first suffix of `t`, the whole text included, that satisfies `p`. -/
def longestSuffix? (p : Text → Bool) : Text → Option Text
  | [] => if p [] then some [] else none
  | c :: r => if p (c :: r) then some (c :: r) else longestSuffix? p r

/-- What stands before the last occurrence of `c`. -/
def beforeLast? (c : Char) : Text → Option Text
  | [] => none
  | d :: r =>
    match beforeLast? c r with
    | some p => some (d :: p)
    | none => if d = c then some [] else none

/-- What follows `p` at the start of the text, if the text starts with `p`. -/
def after? (p : Text) : Text → Option Text
  | t => if p.isPrefixOf t then some (t.drop p.length) else none

/-- Order by code points, a proper initial part coming first. -/
def le : Text → Text → Bool
  | [], _ => true
  | _ :: _, [] => false
  | a :: r, b :: s => if a = b then le r s else a.val < b.val

/-- Stable sorting of `xs` by a text key. -/
def sortOn {α : Type} (key : α → Text) (xs : List α) : List α :=
  xs.mergeSort fun a b => le (key a) (key b)

/-- Equal neighbours merged; on a sorted list this removes every repetition. -/
def dedupNeighbours : List Text → List Text
  | [] => []
  | [t] => [t]
  | t :: u :: r => if t = u then dedupNeighbours (u :: r) else t :: dedupNeighbours (u :: r)

def ofNat (n : Nat) : Text := Nat.toDigits 10 n

/-- Decimal digits of an integer, after a minus sign if it is negative. -/
def ofInt : Int → Text
  | .ofNat n => ofNat n
  | .negSucc n => '-' :: ofNat (n + 1)

end Text
end EditorInsight
