import EditorInsight.Source.Header
import EditorInsight.Source.Symbol
import EditorInsight.Text.Lines

/-!
# Outlines of modules

The outline of a module lists what its unindented lines declare: functions, classes and variables,
and for each class the methods of its body. It is read off the raw lines. A line that has none of
the known shapes is passed over, so every text has an outline; at worst it is empty.
-/

namespace EditorInsight

/-- What a module declares. A class without methods has no entry in `methods`. -/
structure Outline where
  topLevel : OrderedMap Text Symbol := {}
  methods : OrderedMap Text (OrderedMap Text Symbol) := {}
  deriving DecidableEq

namespace Outline

/-- How lines are read: the least indentation of a class body, and the line budget of a header. -/
structure Layout where
  bodyIndent : Int := 4
  maxHeaderLines : Int := Header.defaultMaxLines

def isEmpty (o : Outline) : Bool := o.topLevel.isEmpty && o.methods.isEmpty

def method? (o : Outline) (owner name : Text) : Option Symbol :=
  (o.methods.get? owner).bind (·.get? name)

def putTopLevel (o : Outline) (s : Symbol) : Outline :=
  { o with topLevel := o.topLevel.put s.name s }

/-- Whether a line, trailing blanks dropped, begins with a definition keyword. -/
def beginsDefinition (line : Text) : Bool :=
  List.isPrefixOf "def ".toList line || List.isPrefixOf "async def ".toList line

/-- The bases of a class, up to the last parenthesis that blanks and a colon follow. -/
def splitBases? : Text → Option Text
  | [] => none
  | c :: r =>
    match splitBases? r with
    | some bases => some (c :: bases)
    | none => if c = ')' && (Text.trimLeft r).head? = some ':' then some [] else none

/-- Reads `class Name[(bases)]:`, giving the name and the bases. -/
def classLine? (line : Text) : Option (Text × Text) :=
  match ((Text.after? "class" line).bind Text.skipBlanks1?).bind Text.identifier? with
  | none => none
  | some (name, r) =>
    match Text.trimLeft r with
    | ':' :: _ => some (name, [])
    | '(' :: inside => (splitBases? inside).map fun bases => (name, Text.trim bases)
    | _ => none

/-- Reads the name of `name =`. -/
def variableLine? (line : Text) : Option Text :=
  match Text.identifier? line with
  | none => none
  | some (name, r) => if (Text.trimLeft r).head? = some '=' then some name else none

def classSymbol (name bases : Text) : Symbol :=
  ⟨.classDecl, name, "class " ++ name ++ (if bases.isEmpty then [] else ['('] ++ bases ++ [')'])⟩

def functionSymbol (h : Header) : Symbol := ⟨.function, h.name, h.format⟩

def methodSymbol (owner : Text) (h : Header) : Symbol := ⟨.method owner, h.name, h.format owner⟩

/-- The methods of a class body, which ends at the next unindented line or at one indented too little.
Blank lines and comments do not end it. `skip` lines belong to a header already read. -/
def bodyMethods (layout : Layout) (owner : Text) (skip : Nat) (found : OrderedMap Text Symbol) :
    List Text → OrderedMap Text Symbol
  | [] => found
  | line :: rest =>
    match skip with
    | k + 1 => bodyMethods layout owner k found rest
    | 0 =>
      if Text.isSkippable line then bodyMethods layout owner 0 found rest
      else if Text.isTopLevel line then found
      else if (Text.indentation line : Int) < layout.bodyIndent then found
      else
        let header := if beginsDefinition (Text.trim line) then
            Header.read? layout.maxHeaderLines (line :: rest)
          else none
        match header with
        | some (h, n) =>
          bodyMethods layout owner (n - 1) (found.put h.name (methodSymbol owner h)) rest
        | none => bodyMethods layout owner 0 found rest

/-- The outline with a class and the methods of the lines below it. -/
def putClass (layout : Layout) (o : Outline) (name bases : Text) (below : List Text) : Outline :=
  let o := o.putTopLevel (classSymbol name bases)
  let found := bodyMethods layout name 0 {} below
  if found.isEmpty then o else { o with methods := o.methods.put name found }

/-- Adds what the lines declare. `skip` lines belong to a header already read. -/
def scan (layout : Layout) (skip : Nat) (o : Outline) : List Text → Outline
  | [] => o
  | line :: rest =>
    match skip with
    | k + 1 => scan layout k o rest
    | 0 =>
      if Text.isSkippable line || !Text.isTopLevel line then scan layout 0 o rest
      else
        let trimmed := Text.trimRight line
        let header := if beginsDefinition trimmed then
            Header.read? layout.maxHeaderLines (line :: rest)
          else none
        match header with
        | some (h, n) => scan layout (n - 1) (o.putTopLevel (functionSymbol h)) rest
        | none =>
          match classLine? trimmed with
          | some (name, bases) => scan layout 0 (o.putClass layout name bases rest) rest
          | none =>
            match variableLine? trimmed with
            | some name => scan layout 0 (o.putTopLevel (Symbol.binding name)) rest
            | none => scan layout 0 o rest

def ofText (layout : Layout) (t : Text) : Outline := scan layout 0 {} (Text.splitLines t)

end Outline
end EditorInsight
