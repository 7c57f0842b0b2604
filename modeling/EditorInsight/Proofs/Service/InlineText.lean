import EditorInsight.Proofs.Service.Undisturbed
import EditorInsight.Proofs.Text.Utf8

/-!
# Documents given and documents read

A document may come with its text, or be read from its file. Requests look at the lines of a document only,
and at its name and version; so it makes no difference to them where the text comes from, if the file holds
it in UTF-8.
-/

namespace EditorInsight

open Text

/-! Requests depend on lines. -/

namespace Document

/-- The documents have the same name, version and lines. -/
structure Alike (d d' : Document) : Prop where
  uri_eq : d.uri = d'.uri
  version_eq : d.version = d'.version
  lines_eq : splitLines d.text = splitLines d'.text

variable {d d' : Document}

theorem Alike.lineAt_eq (h : d.Alike d') (line : Int) : d.lineAt line = d'.lineAt line := by
  rw [lineAt, lineAt, h.lines_eq]

theorem Alike.beforeCursor_eq (h : d.Alike d') (line column : Int) :
    d.beforeCursor line column = d'.beforeCursor line column := by
  rw [beforeCursor, beforeCursor, h.lineAt_eq]

end Document

namespace Workspace

variable {d d' : Document}

theorem locateFirst?_eq {text text' : Text} (h : splitLines text = splitLines text') (name : Text)
    (kinds : List SymbolKind) : locateFirst? text name kinds = locateFirst? text' name kinds := by
  unfold locateFirst? Declaration.locate?
  rw [h]

theorem localLocation_eq (h : d.Alike d') (expression : Text) :
    localLocation d expression = localLocation d' expression := by
  unfold localLocation Document.path
  simp only [locateFirst?_eq h.lines_eq, h.uri_eq]

theorem expressionLocation_eq (w : Workspace) (h : d.Alike d') (p : CursorPosition) :
    w.expressionLocation d p = w.expressionLocation d' p := by
  unfold expressionLocation
  simp only [h.lineAt_eq, localLocation_eq h]

theorem inquire_eq (w : Workspace) (h : d.Alike d') (p : CursorPosition) (k : RequestKind) :
    w.inquire d p k = w.inquire d' p k := by
  cases k with
  | complete =>
    unfold inquire complete
    rw [h.beforeCursor_eq]
  | definition =>
    unfold inquire definition
    rw [h.lineAt_eq, expressionLocation_eq w h]
  | hover =>
    unfold inquire hover
    rw [h.lineAt_eq]
  | signatureHelp =>
    unfold inquire signatureHelp
    rw [h.beforeCursor_eq]

end Workspace

namespace Act

/-- Requests on documents that are alike do the same. -/
theorem request_eq_of_alike {d d' : Document} (h : d.Alike d') (k : RequestKind) (p : CursorPosition) :
    request k d p = request k d' p := by
  unfold request
  simp only [fun w : Workspace => w.inquire_eq h p k, h.uri_eq, h.version_eq]

theorem runIn_readDocument_some (s : Session) (path text : Text) (version : Option Int) :
    (readDocument path (some text) version).runIn s =
      (s, .ok (some ⟨path, text, version.getD ((s.versions.get? path).getD 0)⟩)) := rfl

theorem runIn_readDocument_none {s : Session} {path text : Text} (h : s.disk.read path = (some text, []))
    (version : Option Int) : (readDocument path none version).runIn s =
      (s, .ok (some ⟨path, text, version.getD ((s.versions.get? path).getD 0)⟩)) := by
  have hnote : s.note [] = s := by rw [Session.note, List.append_nil]
  have hask : (askDisk (.read path)).run.run ⟨s, {}⟩ = (.ok (some text), ⟨s, { asked := [.read path] }⟩) := by
    simp only [askDisk, run_bind, run_modifyTurn, run_session, Disk.reply, h, run_modifySession, meetIncident,
      run_get, run_pure, List.map_nil, hnote]
    rfl
  unfold readDocument runIn
  dsimp only
  rw [run_bind, hask]
  rfl

end Act

namespace Disk

theorem read_encodeUtf8 {d : Disk} {path t : Text} {place : List Text} (hnull : Path.hasNull path = false)
    (hfile : d.arrive (Path.tidy path) = .found place (.file (encodeUtf8 t)))
    (hsize : (encodeUtf8 t).length ≤ d.maxFileBytes) : d.read path = (some (universalNewlines t), []) := by
  have hfits : ¬ ((encodeUtf8 t).length : Int) > d.maxFileBytes := by omega
  simp only [read, hnull, hfile, hfits, decode, decodeUtf8?_encodeUtf8, Bool.false_eq_true, if_false]

end Disk

/-- A document that is read from a file gets the answers that it gets with the text of the file given, from
every session and in every turn. -/
theorem Session.request_on_file_eq_inline (s : Session) {path t : Text} {place : List Text}
    (hreturns : ReturnsEndLines t) (hnull : Path.hasNull path = false)
    (hfile : s.disk.arrive (Path.tidy path) = .found place (.file (encodeUtf8 t)))
    (hsize : (encodeUtf8 t).length ≤ s.disk.maxFileBytes) (version : Option Int) :
    ∃ onDisk inline : Document,
      (Act.readDocument path none version).runIn s = (s, .ok (some onDisk)) ∧
      (Act.readDocument path (some t) version).runIn s = (s, .ok (some inline)) ∧
      ∀ (k : RequestKind) (p : CursorPosition) (turn : Turn),
        (Act.request k onDisk p).runIn s turn = (Act.request k inline p).runIn s turn := by
  have hread := Disk.read_encodeUtf8 hnull hfile hsize
  refine ⟨_, _, Act.runIn_readDocument_none hread version, Act.runIn_readDocument_some s path t version, ?_⟩
  intro k p turn
  have halike : Document.Alike ⟨path, universalNewlines t, version.getD ((s.versions.get? path).getD 0)⟩
      ⟨path, t, version.getD ((s.versions.get? path).getD 0)⟩ :=
    ⟨rfl, rfl, splitLines_universalNewlines hreturns⟩
  rw [Act.request_eq_of_alike halike]

theorem Session.request_on_file_eq_inline_returns :
    let t : Text := "# ä 😀\r\ndef f(a):\r\n    pass\r\nf(1)"
    let path : Text := "/w//d.apy/"
    let s : Session := {
      configuration := { workspace := "/w", file := "/w/.apy_intel.yml" }
      schema := {}
      disk := { top := .folder [("w", .folder [("d.apy", .file (encodeUtf8 t))])] } }
    ReturnsEndLines t ∧ universalNewlines t ≠ t ∧
    ((Act.request .definition ⟨path, t, 0⟩ ⟨3, 0⟩).runIn s).2 = .ok (some ⟨path, 1, 0⟩) ∧
    ∃ onDisk inline : Document,
      (Act.readDocument path none none).runIn s = (s, .ok (some onDisk)) ∧
      (Act.readDocument path (some t) none).runIn s = (s, .ok (some inline)) ∧
      ∀ (k : RequestKind) (p : CursorPosition) (turn : Turn),
        (Act.request k onDisk p).runIn s turn = (Act.request k inline p).runIn s turn := by
  intro t path s
  have hreturns : ReturnsEndLines t := by decide +kernel
  have hsize : (encodeUtf8 t).length ≤ s.disk.maxFileBytes := by decide +kernel
  refine ⟨hreturns, by decide +kernel, by rfl, ?_⟩
  exact s.request_on_file_eq_inline hreturns (by decide +kernel) rfl hsize none

end EditorInsight
