import EditorInsight.Data.Value
import EditorInsight.Data.OrderedMap

/-!
# Symbols

A symbol is a function, a class, a variable or a method, with its name and a signature to show. A
method also knows its class. Symbols also come as plain data, which is checked: the kind has to be
known, a method has to name its class, and nothing else may.
-/

namespace EditorInsight

inductive SymbolKind where
  | function
  | classDecl
  | binding
  | method (owner : Text)
  deriving DecidableEq

structure Symbol where
  kind : SymbolKind
  name : Text
  signature : Text
  deriving DecidableEq

namespace SymbolKind

def word : SymbolKind → Text
  | function => "function"
  | classDecl => "class"
  | binding => "variable"
  | method _ => "method"

def owner? : SymbolKind → Option Text
  | method c => some c
  | _ => none

/-- Whether the symbol can be called with arguments of its own: classes are shown otherwise. -/
def isCallable : SymbolKind → Bool
  | function => true
  | method _ => true
  | _ => false

end SymbolKind

namespace Symbol

/-- A variable is shown with its value left out. -/
def binding (name : Text) : Symbol := ⟨.binding, name, name ++ " = ..."⟩

end Symbol

inductive SymbolFault where
  | notARecord
  | missingField (name : String)
  | unknownKind (kind : Value)
  | methodWithoutClass (name : Value)
  | classOnOtherKind (kind : Value)

def SymbolFault.message : SymbolFault → Text
  | notARecord => "not a record"
  | missingField name => Text.quote name
  | unknownKind kind => "Unknown symbol kind: " ++ kind.literal
  | methodWithoutClass name => "Method symbol " ++ name.literal ++ " requires class_name"
  | classOnOtherKind kind =>
    "Only method symbols carry class_name, got kind " ++ kind.literal

structure SymbolRecord where
  kind : Value
  name : Value
  signature : Value
  owner : Value := .null

namespace SymbolRecord

def kindWords : List Text := ["function", "class", "variable", "method"]

/-- Whether the kind is the word for methods. -/
def isMethod (r : SymbolRecord) : Bool :=
  match r.kind with
  | .text t => t = "method"
  | _ => false

/-- The record, if its fields fit together. -/
def check (r : SymbolRecord) : Except SymbolFault SymbolRecord :=
  let known := match r.kind with
    | .text t => kindWords.contains t
    | _ => false
  if !known then .error (.unknownKind r.kind)
  else if r.isMethod && r.owner.isTrivial then .error (.methodWithoutClass r.name)
  else match r.isMethod, r.owner with
    | true, _ => .ok r
    | false, .null => .ok r
    | false, _ => .error (.classOnOtherKind r.kind)

/-- Reads the fields of a mapping. -/
def ofValue (v : Value) : Except SymbolFault SymbolRecord := do
  match v with
  | .map entries =>
    let need (name : String) : Except SymbolFault Value :=
      match Value.field? entries name with
      | some v => .ok v
      | none => .error (.missingField name)
    let kind ← need "kind"
    let name ← need "name"
    let signature ← need "signature"
    check ⟨kind, name, signature, (Value.field? entries "class_name").getD .null⟩
  | _ => .error .notARecord

/-- The record as a mapping; the class is left out where there is none. -/
def toValue (r : SymbolRecord) : Value :=
  let owner : List (Value × Value) := match r.owner with
    | .null => []
    | v => [(.text "class_name", v)]
  .map ([(.text "kind", r.kind), (.text "name", r.name), (.text "signature", r.signature)] ++ owner)

def ofSymbol (s : Symbol) : SymbolRecord :=
  ⟨.text s.kind.word, .text s.name, .text s.signature,
    match s.kind.owner? with
    | some c => .text c
    | none => .null⟩

end SymbolRecord
end EditorInsight
