import EditorInsight.Data.Value

/-!
# Requests and their results

The four things that an editor asks for at a position of a document, and what it gets.
-/

namespace EditorInsight

/-- One thing that can be written. What a schema offers may be any value. -/
structure CompletionItem where
  label : Value
  kind : Value
  detail : Option Text := none
  sortText : Option Text := none

structure Location where
  path : Text
  line : Nat := 0
  column : Nat := 0
  deriving DecidableEq

/-- A signature with its parameters and the one that the cursor is in. -/
structure SignatureHelp where
  signature : Text
  parameters : List Text
  active : Int
  deriving DecidableEq

/-- A line and a column as an editor gives them; neither need exist in the document. -/
structure CursorPosition where
  line : Int
  column : Int
  deriving DecidableEq

inductive RequestKind where
  | complete
  | definition
  | hover
  | signatureHelp
  deriving DecidableEq

namespace RequestKind

abbrev Result : RequestKind → Type
  | complete => List CompletionItem
  | definition => Option Location
  | hover => Option Text
  | signatureHelp => Option SignatureHelp

/-- The result that says nothing. -/
def nothing : (k : RequestKind) → k.Result
  | complete => []
  | definition => none
  | hover => none
  | signatureHelp => none

end RequestKind
end EditorInsight
