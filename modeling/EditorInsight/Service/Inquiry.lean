import EditorInsight.Ambient.Schema
import EditorInsight.Document.Basic
import EditorInsight.Library.Listing
import EditorInsight.Service.Result
import EditorInsight.Source.Cursor
import EditorInsight.Source.Declaration
import EditorInsight.Source.Parameters

/-!
# How requests are answered

A request is answered by a dialogue: it asks for the importable names, for outlines of modules and
about files, and passes checkpoints at which it may be abandoned. Nothing here knows of caches.

A dotted name is first looked up among the ambient objects; in the library only if its first part
can be imported. The longest initial part that leads to a module decides.
-/

namespace EditorInsight

inductive ServiceQuestion where
  /-- A point at which the request may be abandoned. -/
  | checkpoint
  /-- The names at the top of the library. -/
  | imports
  /-- What the module at a path declares. -/
  | outline (path : Text)
  | file (q : FileQuestion)

abbrev ServiceQuestion.Answer : ServiceQuestion → Type
  | .checkpoint => Unit
  | .imports => List Text
  | .outline _ => Outline
  | .file q => q.Answer

abbrev Inquiry := Dialogue ServiceQuestion ServiceQuestion.Answer

namespace Inquiry

def checkpoint : Inquiry Unit := Dialogue.question ServiceQuestion.checkpoint

def imports : Inquiry (List Text) := Dialogue.question ServiceQuestion.imports

def outline (path : Text) : Inquiry Outline := Dialogue.question (ServiceQuestion.outline path)

/-- A probe as part of an inquiry. -/
def probe {α : Type} (p : Probe α) : Inquiry α :=
  p.refine fun q => Dialogue.question (ServiceQuestion.file q)

end Inquiry

/-- Why a request has no result. -/
inductive RequestFault where
  | uri (fault : Uri.Fault)
  | parameter (fault : ParameterFault)
  deriving DecidableEq

/-- What requests are answered from, besides the disk. -/
structure Workspace where
  library : Library
  tablesRoot : Text
  schema : Schema

namespace Workspace

/-- The target of a dotted name in the library, if its first part can be imported. -/
def libraryTarget? (w : Workspace) (dotted : Text) : Inquiry (Option Target) :=
  match Text.splitDotted dotted with
  | [] => pure none
  | first :: _ => do
    Inquiry.checkpoint
    if (← Inquiry.imports).elem first then
      Inquiry.checkpoint
      Inquiry.probe (w.library.target? dotted)
    else return none

/-- The symbol that a target selects. -/
def targetSymbol? (t : Target) : Inquiry (Option Symbol) :=
  match t.selection with
  | .whole => pure none
  | .member name => do return (← Inquiry.outline t.path).topLevel.get? name
  | .method owner name => do return (← Inquiry.outline t.path).method? owner name

/-! Completion. -/

/-- The chain before the dot that the cursor follows. A subscript is shown as empty brackets. -/
def completionChain? (before : Text) : Option Text :=
  match Cursor.tableChainBeforeDot? before with
  | some chain => some (chain ++ "[]")
  | none => Cursor.chainBeforeDot? before

/-- Ambient members are sorted before everything else. -/
def ambientItem (c : AmbientCompletion) : CompletionItem :=
  ⟨c.label, c.kind, c.detail, some ("0_" ++ c.label.display)⟩

def symbolItem (e : Text × Symbol) : CompletionItem :=
  ⟨.text e.1, .text e.2.kind.word, some e.2.signature, none⟩

/-- The symbols of a map by name. -/
def symbolItems (m : OrderedMap Text Symbol) : List CompletionItem :=
  (Text.sortOn Prod.fst m.entries).map symbolItem

/-- The methods of the class that the chain leads to. -/
def methodItems (w : Workspace) (chain : Text) : Inquiry (List CompletionItem) := do
  match ← Inquiry.probe (w.library.target? chain) with
  | some ⟨path, .member name⟩ =>
    return symbolItems (((← Inquiry.outline path).methods.get? name).getD {})
  | _ => return []

/-- What the library offers after a chain: the content of a package, the symbols of a module, or the
methods of a class. -/
def libraryItems (w : Workspace) (chain : Text) : Inquiry (List CompletionItem) :=
  match Text.splitDotted chain with
  | [] => pure []
  | first :: rest => do
    if (← Inquiry.imports).elem first then
      Inquiry.checkpoint
      match ← Inquiry.probe (w.library.item? (first :: rest)) with
      | some (.package path) =>
        Inquiry.checkpoint
        return (← Inquiry.probe (w.library.children path)).map fun c =>
          { label := .text c.name, kind := .text c.kind.word }
      | some (.moduleFile path _) => return symbolItems (← Inquiry.outline path).topLevel
      | none => w.methodItems chain
    else return []

/-- What can be written at the cursor. -/
def complete (w : Workspace) (d : Document) (p : CursorPosition) : Inquiry (List CompletionItem) :=
  match completionChain? (d.beforeCursor p.line p.column) with
  | none => do return (← Inquiry.imports).map fun name => { label := .text name, kind := "module" }
  | some chain =>
    match w.schema.completionsFor? chain with
    | some items => pure (items.map ambientItem)
    | none => w.libraryItems chain

/-! Definition. -/

/-- The kinds in the order in which a bare name is looked for. -/
def declarationKinds : List SymbolKind := [.function, .classDecl, .binding]

/-- The first of the kinds under which a text declares the name. -/
def locateFirst? (text name : Text) (kinds : List SymbolKind) : Option Position :=
  kinds.findSome? fun kind => Declaration.locate? text kind name

/-- Where a target is declared. A module is declared at its start, and so is what is not found in it. -/
def targetLocation (t : Target) : Inquiry Location :=
  match t.selection with
  | .whole => pure ⟨t.path, 0, 0⟩
  | selection => do
    Inquiry.checkpoint
    match ← Inquiry.probe (Probe.read t.path) with
    | none => return ⟨t.path, 0, 0⟩
    | some text =>
      let found ← match selection with
        | .whole => pure none
        | .method owner name => pure (locateFirst? text name [.method owner])
        | .member name => do
          match (← Inquiry.outline t.path).topLevel.get? name with
          | some symbol => pure (locateFirst? text name [symbol.kind])
          | none => pure (locateFirst? text name declarationKinds)
      match found with
      | some position => return ⟨t.path, position.line, position.column⟩
      | none => return ⟨t.path, 0, 0⟩

/-- Where a bare name is declared in the document itself. -/
def localLocation (d : Document) (expression : Text) : Except Uri.Fault (Option Location) :=
  match Text.splitDotted expression with
  | [name] =>
    match locateFirst? d.text name declarationKinds with
    | some position => do return some ⟨← d.path, position.line, position.column⟩
    | none => .ok none
  | _ => .ok none

/-- Where the expression under the cursor is declared. -/
def expressionLocation (w : Workspace) (d : Document) (p : CursorPosition) :
    Inquiry (Except Uri.Fault (Option Location)) :=
  match Cursor.expressionAt? (d.lineAt p.line) p.column with
  | none => pure (.ok none)
  | some expression => do
    match ← w.libraryTarget? expression with
    | some target => return .ok (some (← targetLocation target))
    | none => return localLocation d expression

/-- Where what the cursor is on is declared: a table in its schema file, anything else as an
expression. -/
def definition (w : Workspace) (d : Document) (p : CursorPosition) :
    Inquiry (Except Uri.Fault (Option Location)) :=
  match Cursor.tableAt? (d.lineAt p.line) p.column with
  | none => w.expressionLocation d p
  | some table => do
    Inquiry.checkpoint
    match ← Inquiry.probe (tableFile? w.tablesRoot table) with
    | some path => return .ok (some ⟨path, 0, 0⟩)
    | none => w.expressionLocation d p

/-! Signatures. -/

/-- The signature of a dotted name; for a call only of what can be called. -/
def signature? (w : Workspace) (dotted : Text) (forCall : Bool) :
    Inquiry (Except ParameterFault (Option Text)) :=
  match Text.splitDotted dotted with
  | [] => pure (.ok none)
  | first :: _ =>
    if w.schema.isRoot first then pure (w.schema.signature? dotted)
    else do
      match ← w.libraryTarget? dotted with
      | none => return .ok none
      | some target =>
        match ← targetSymbol? target with
        | none => return .ok none
        | some symbol =>
          return .ok (if forCall && !symbol.kind.isCallable then none else some symbol.signature)

/-- A signature that has something to show. -/
def shown? (signature : Option Text) : Option Text := signature.filter (!·.isEmpty)

def hover (w : Workspace) (d : Document) (p : CursorPosition) :
    Inquiry (Except ParameterFault (Option Text)) :=
  match Cursor.expressionAt? (d.lineAt p.line) p.column with
  | none => pure (.ok none)
  | some expression => do return (← w.signature? expression false).map shown?

/-- The signature of the call around the cursor. -/
def signatureHelp (w : Workspace) (d : Document) (p : CursorPosition) :
    Inquiry (Except ParameterFault (Option SignatureHelp)) :=
  match Cursor.enclosingCall? (d.beforeCursor p.line p.column) with
  | none => pure (.ok none)
  | some call => do
    return (← w.signature? call.callee true).map fun found => (shown? found).map fun signature =>
      let parameters := parameterLabels signature
      ⟨signature, parameters, activeParameter call.arguments parameters.length⟩

def inquire (w : Workspace) (d : Document) (p : CursorPosition) :
    (k : RequestKind) → Inquiry (Except RequestFault k.Result)
  | .complete => do return .ok (← w.complete d p)
  | .definition => do return (← w.definition d p).mapError .uri
  | .hover => do return (← w.hover d p).mapError .parameter
  | .signatureHelp => do return (← w.signatureHelp d p).mapError .parameter

end Workspace
end EditorInsight
