import EditorInsight.Source.Outline
import EditorInsight.Text.Word

/-!
# Where a symbol is declared

Finds the line of a text that declares a symbol of a given kind and name. Functions, classes and
variables are looked for on unindented lines; a method is looked for below the first line of its
class, as far as the lines are blank or indented, and falls back on that line. The name is any
text and stands for itself.
-/

namespace EditorInsight

/-- A position in a text, counted from zero. -/
structure Position where
  line : Nat
  column : Nat := 0
  deriving DecidableEq

namespace Declaration

/-- Whether the line has `class`, blanks, the name, and then no further word character of it. -/
def isClass (name line : Text) : Bool :=
  match Text.after? "class" line with
  | some (c :: r) =>
    Text.isBlank c && Text.afterBlanks (fun t =>
      match Text.after? name t with
      | some rest => Text.isBoundary name.getLast? rest
      | none => false) r
  | _ => false

/-- Whether the text has the name, blanks and then `c`. -/
def isFollowedBy (c : Char) (name t : Text) : Bool :=
  match Text.after? name t with
  | some rest => Text.afterBlanks (fun u => u.head? = some c) rest
  | none => false

/-- Whether the line has `[async ]def`, blanks, the name and an opening parenthesis. -/
def isFunction (name line : Text) : Bool :=
  match Text.after? "def" (Header.stripAsync line).2 with
  | some (c :: r) => Text.isBlank c && Text.afterBlanks (isFollowedBy '(' name) r
  | _ => false

/-- Whether the line assigns to the name. -/
def isBinding (name line : Text) : Bool := isFollowedBy '=' name line

/-- Whether a trimmed line declares the name as the kind says. Methods are not looked for this way. -/
def declares (kind : SymbolKind) (name line : Text) : Bool :=
  match kind with
  | .function => isFunction name line
  | .classDecl => isClass name line
  | .binding => isBinding name line
  | .method _ => false

/-- The index of the first unindented line that satisfies `p` once trailing blanks are dropped, and the
lines below it. -/
def findTopLevel? (p : Text → Bool) (index : Nat) : List Text → Option (Nat × List Text)
  | [] => none
  | line :: rest =>
    if !Text.isIndented line && p (Text.trimRight line) then some (index, rest)
    else findTopLevel? p (index + 1) rest

/-- The index of the first line of a body that declares the function. The body ends at the first line that
is neither blank nor indented. -/
def findInBody? (name : Text) (index : Nat) : List Text → Option Nat
  | [] => none
  | line :: rest =>
    if Text.isBlankText line then findInBody? name (index + 1) rest
    else if !Text.isIndented line then none
    else if isFunction name (Text.trim line) then some index
    else findInBody? name (index + 1) rest

/-- Where the text declares the symbol. A class of a method must have a name. -/
def locate? (t : Text) (kind : SymbolKind) (name : Text) : Option Position :=
  let lines := Text.splitLines t
  match kind with
  | .method owner =>
    if owner.isEmpty then none
    else match findTopLevel? (isClass owner) 0 lines with
      | none => none
      | some (line, body) => some ⟨(findInBody? name (line + 1) body).getD line, 0⟩
  | kind => (findTopLevel? (declares kind name) 0 lines).map fun found => ⟨found.1, 0⟩

end Declaration
end EditorInsight
