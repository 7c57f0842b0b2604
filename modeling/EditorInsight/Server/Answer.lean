import EditorInsight.Data.Value
import EditorInsight.Service.Session

/-!
# Answers of tools

The results of requests as values with named fields. Fields that an item lacks are left out, and a
result that says nothing is null.
-/

namespace EditorInsight

def Value.record (fields : List (String × Value)) : Value :=
  .map (fields.map fun f => (.text f.1.toList, f.2))

def CompletionItem.value (i : CompletionItem) : Value :=
  .record ([("label", i.label), ("kind", i.kind)] ++
    (i.detail.map fun d => ("detail", .text d)).toList ++
    (i.sortText.map fun d => ("sort_text", .text d)).toList)

def Location.value (l : Location) : Value :=
  .record [("path", .text l.path), ("line", .int l.line), ("column", .int l.column)]

def SignatureHelp.value (h : SignatureHelp) : Value :=
  .record [("signature", .text h.signature), ("parameters", .list (h.parameters.map .text)),
    ("active_parameter", .int h.active)]

def RequestKind.value : (k : RequestKind) → k.Result → Value
  | .complete, items => .list (items.map CompletionItem.value)
  | .definition, l => (l.map Location.value).getD .null
  | .hover, h => (h.map fun t => .record [("signature", .text t)]).getD .null
  | .signatureHelp, h => (h.map SignatureHelp.value).getD .null

/-- The counts of a cache that holds the given number of entries. -/
def Statistics.value (s : Statistics) (entries : Nat) : Value :=
  .record [("hits", .int s.hits), ("misses", .int s.misses),
    ("invalidations", .int s.invalidations), ("stale_refreshes", .int s.staleRefreshes),
    ("current_entry_count", .int entries)]

/-- The counts of both caches. -/
def Session.statistics (s : Session) : Value :=
  .record [("module_index", s.outlines.statistics.value s.outlines.size),
    ("import_list", s.imports.statistics.value s.imports.size)]

end EditorInsight
