import EditorInsight.Text.Identifier
import EditorInsight.Text.Word

/-!
# Dotted references in a text

The chains of two to eleven identifiers joined by dots that stand between word boundaries, from
left to right and without overlap. A chain is as long as its boundaries allow.
-/

namespace EditorInsight.Source

/-- The most identifiers that follow the first one in a chain. -/
def maxLinks : Nat := 10

/-- At most `n` identifiers, each after a dot, with a word boundary after the last. -/
def links : Nat → Text → List Text
  | n + 1, '.' :: r =>
    match Text.identifier? r with
    | none => []
    | some (name, rest) =>
      match links n rest with
      | [] => if Text.startsWord rest then [] else [name]
      | more => name :: more
  | _, _ => []

/-- The parts of the chain at the start of the text, if it has two or more. -/
def chainAt? (t : Text) : Option (List Text) :=
  match Text.identifier? t with
  | none => none
  | some (name, rest) =>
    match links maxLinks rest with
    | [] => none
    | more => some (name :: more)

/-- The chains of a text that follows the character `before`; `skip` characters belong to the chain
found last. -/
def chainsFrom (before : Option Char) (skip : Nat) : Text → List (List Text)
  | [] => []
  | c :: r =>
    match skip with
    | k + 1 => chainsFrom (some c) k r
    | 0 =>
      match if Text.isBoundary before (c :: r) then chainAt? (c :: r) else none with
      | some parts => parts :: chainsFrom (some c) ((Text.joinDotted parts).length - 1) r
      | none => chainsFrom (some c) 0 r

def references (t : Text) : List (List Text) := chainsFrom none 0 t

end EditorInsight.Source
