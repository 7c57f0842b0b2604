import EditorInsight.Service.Turn

/-!
# Tools

The operations that a client calls by name: the four requests at a position of a file, whose text
the client may send along, and the dropping of cached library data. Each call also sends messages
to the client.
-/

namespace EditorInsight

/-- A message to the client. -/
structure ToolMessage where
  isError : Bool
  text : Text
  deriving DecidableEq

namespace Tool

def names : List Text :=
  ["complete", "definition", "hover", "signature_help", "invalidate_library_cache"]

def requestKind? (name : Text) : Option RequestKind :=
  match name.str with
  | "complete" => some .complete
  | "definition" => some .definition
  | "hover" => some .hover
  | "signature_help" => some .signatureHelp
  | _ => none

/-- A position in a file, with its text and version if the client knows them. -/
structure Arguments where
  file : Text
  position : CursorPosition
  text : Option Text := none
  version : Option Int := none

/-- Answers a request for a tool. A version becomes the latest known one before anything else. -/
def run (k : RequestKind) (a : Arguments) : Act k.Result := do
  match a.version with
  | some v => Act.modifySession (·.updateDocument a.file v)
  | none => pure ()
  match ← Act.readDocument a.file a.text a.version with
  | none => Act.fail (.unreadable a.file)
  | some d => Act.request k d a.position

def failureWords : RequestKind → Text
  | .complete => "Completion failed for "
  | .definition => "Definition lookup failed for "
  | .hover => "Hover failed for "
  | .signatureHelp => "Signature help failed for "

def failureMessage (k : RequestKind) (file : Text) : ServiceFault → ToolMessage
  | .unreadable _ => ⟨true, "File not found: " ++ file⟩
  | f => ⟨true, failureWords k ++ file ++ ": " ++ f.message⟩

/-- The messages about a result; only completions are counted. -/
def resultMessages (a : Arguments) : (k : RequestKind) → k.Result → List ToolMessage
  | .complete, items =>
    [⟨false, Text.ofNat items.length ++ " completions for " ++ a.file ++ ":" ++
      Text.ofInt a.position.line ++ ":" ++ Text.ofInt a.position.column⟩]
  | _, _ => []

def messages (k : RequestKind) (a : Arguments) : Except Interruption k.Result → List ToolMessage
  | .ok result => resultMessages a k result
  | .error (.failed f) => [failureMessage k a.file f]
  | .error .cancelled => []

def invalidationMessage (path : Option Text) : Except Interruption Unit → List ToolMessage
  | .ok _ =>
    let what : Text := (path.filter (!·.isEmpty)).getD "all modules"
    [⟨false, "Library cache invalidated (" ++ what ++ ")"⟩]
  | .error (.failed f) => [⟨true, "Error invalidating library cache: " ++ f.message⟩]
  | .error .cancelled => []

end Tool
end EditorInsight
