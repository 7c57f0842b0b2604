import EditorInsight.Text.Basic

/-!
# Identifiers and dotted names

Identifiers are ASCII: a letter or underscore, then letters, digits and underscores. A chain is
one or more identifiers joined by dots. A dotted name is any text read as the parts between its
dots, empty parts dropped.
-/

namespace EditorInsight.Text

def isIdentStart (c : Char) : Bool := c.isAlpha || c == '_'

def isIdentPart (c : Char) : Bool := c.isAlphanum || c == '_'

/-- The identifier at the start of the text and what follows it. -/
def identifier? : Text → Option (Text × Text)
  | [] => none
  | c :: r =>
    if isIdentStart c then some (c :: r.takeWhile isIdentPart, r.dropWhile isIdentPart) else none

/-- Whether the whole text is an identifier. -/
def isIdentifier : Text → Bool
  | [] => false
  | c :: r => isIdentStart c && r.all isIdentPart

/-- Whether the text is an identifier, where one line feed may follow it. -/
def isName (t : Text) : Bool :=
  match identifier? t with
  | some (_, []) => true
  | some (_, ['\n']) => true
  | _ => false

/-- Whether the whole text is a chain of identifiers joined by single dots. The first test, which the
second implies, is quick to say no. -/
def isChain (t : Text) : Bool :=
  t.all (fun c => c == '.' || isIdentPart c) && (splitWhere (· == '.') t).all isIdentifier

/-- The parts of a dotted name, empty ones dropped. -/
def splitDotted (t : Text) : List Text := (splitWhere (· == '.') t).filter (· ≠ [])

def joinDotted (parts : List Text) : Text := join ['.'] parts

theorem isIdentPart_of_isIdentStart {c : Char} (h : isIdentStart c = true) :
    isIdentPart c = true := by
  simp only [isIdentStart, isIdentPart, Char.isAlphanum, Bool.or_eq_true] at h ⊢
  rcases h with h | h
  · exact Or.inl (Or.inl h)
  · exact Or.inr h

end EditorInsight.Text
