import EditorInsight.Proofs.Library.ModulePath
import EditorInsight.Service.Direct

/-!
# What requests ask for

Whatever a request asks while the disk answers, it asks for outlines only of module paths: it has found
the module before it wants to know what the module declares.
-/

namespace EditorInsight

open Dialogue

namespace Session

/-- An outline is asked for at a module path. -/
def Admits (s : Session) : ServiceQuestion → Prop
  | .outline path => s.library.IsModulePath s.disk path
  | _ => True

theorem run_probe {α : Type} (s : Session) (p : Probe α) :
    (Inquiry.probe p).run s.directAnswer = s.disk.probe p := by
  rw [Inquiry.probe, run_refine]
  congr 1
  funext q
  rw [run_question (m := Except Path.Fault)]
  exact run_question (m := Except Path.Fault) (fun q => (s.disk.reply q).map Prod.fst) q

theorem asks_probe {α : Type} (s : Session) (p : Probe α) :
    (Inquiry.probe p).Asks s.directAnswer s.Admits := by
  refine asks_refine (fun q => ?_) p
  exact asks_question s.directAnswer (p := s.Admits) trivial

theorem asks_checkpoint (s : Session) : Inquiry.checkpoint.Asks s.directAnswer s.Admits :=
  asks_question _ trivial

theorem asks_imports (s : Session) : Inquiry.imports.Asks s.directAnswer s.Admits :=
  asks_question _ trivial

theorem asks_outline {s : Session} {path : Text} (h : s.library.IsModulePath s.disk path) :
    (Inquiry.outline path).Asks s.directAnswer s.Admits :=
  asks_question _ h

variable {s : Session}

/-! Targets in the library. -/

theorem isModulePath_of_libraryTarget? (hslash : ∀ e ∈ s.library.extensions, '/' ∉ e) {dotted : Text} {t : Target}
    (h : (s.workspace.libraryTarget? dotted).run s.directAnswer = .ok (some t)) :
    s.library.IsModulePath s.disk t.path := by
  unfold Workspace.libraryTarget? at h
  split at h
  · cases h
  · rw [run_bind] at h
    obtain ⟨-, -, h⟩ := exists_of_bind_eq_ok h
    rw [run_bind] at h
    obtain ⟨names, -, h⟩ := exists_of_bind_eq_ok h
    split at h
    · rw [run_bind] at h
      obtain ⟨-, -, h⟩ := exists_of_bind_eq_ok h
      rw [run_probe] at h
      exact Library.isModulePath_of_target? hslash h
    · cases h

theorem asks_libraryTarget? (dotted : Text) :
    (s.workspace.libraryTarget? dotted).Asks s.directAnswer s.Admits := by
  unfold Workspace.libraryTarget?
  split
  · exact asks_pure _ _ _
  · refine asks_bind s.asks_checkpoint fun _ _ => asks_bind s.asks_imports fun names _ => ?_
    split
    · exact asks_bind s.asks_checkpoint fun _ _ => s.asks_probe _
    · exact asks_pure _ _ _

theorem asks_targetSymbol? {t : Target} (h : s.library.IsModulePath s.disk t.path) :
    (Workspace.targetSymbol? t).Asks s.directAnswer s.Admits := by
  unfold Workspace.targetSymbol?
  split
  · exact asks_pure _ _ _
  · exact asks_bind (asks_outline h) fun _ _ => asks_pure _ _ _
  · exact asks_bind (asks_outline h) fun _ _ => asks_pure _ _ _

theorem asks_methodItems (hslash : ∀ e ∈ s.library.extensions, '/' ∉ e) (chain : Text) :
    (s.workspace.methodItems chain).Asks s.directAnswer s.Admits := by
  refine asks_bind (s.asks_probe _) fun target htarget => ?_
  rw [run_probe] at htarget
  split
  · exact asks_bind (asks_outline (Library.isModulePath_of_target? hslash htarget))
      fun _ _ => asks_pure _ _ _
  · exact asks_pure _ _ _

theorem asks_libraryItems (hslash : ∀ e ∈ s.library.extensions, '/' ∉ e) (chain : Text) :
    (s.workspace.libraryItems chain).Asks s.directAnswer s.Admits := by
  unfold Workspace.libraryItems
  split
  · exact asks_pure _ _ _
  · refine asks_bind s.asks_imports fun names _ => ?_
    split
    · refine asks_bind s.asks_checkpoint fun _ _ => asks_bind (s.asks_probe _) fun item hitem => ?_
      rw [run_probe] at hitem
      split
      · exact asks_bind s.asks_checkpoint fun _ _ => asks_bind (s.asks_probe _) fun _ _ =>
          asks_pure _ _ _
      · exact asks_bind (asks_outline (Library.isModulePath_of_item? hslash hitem))
          fun _ _ => asks_pure _ _ _
      · exact asks_methodItems hslash chain
    · exact asks_pure _ _ _

theorem asks_complete (hslash : ∀ e ∈ s.library.extensions, '/' ∉ e) (d : Document)
    (p : CursorPosition) :
    (s.workspace.complete d p).Asks s.directAnswer s.Admits := by
  unfold Workspace.complete
  split
  · exact asks_bind s.asks_imports fun _ _ => asks_pure _ _ _
  · split
    · exact asks_pure _ _ _
    · exact asks_libraryItems hslash _

theorem asks_targetLocation {t : Target} (h : s.library.IsModulePath s.disk t.path) :
    (Workspace.targetLocation t).Asks s.directAnswer s.Admits := by
  unfold Workspace.targetLocation
  split
  · exact asks_pure _ _ _
  · refine asks_bind s.asks_checkpoint fun _ _ => asks_bind (s.asks_probe _) fun text _ => ?_
    split
    · exact asks_pure _ _ _
    · dsimp only
      split
      · refine asks_bind (asks_pure _ _ _) fun found _ => ?_
        split <;> exact asks_pure _ _ _
      · refine asks_bind (asks_pure _ _ _) fun found _ => ?_
        split <;> exact asks_pure _ _ _
      · refine asks_bind (asks_outline h) fun o _ => ?_
        split
        · refine asks_bind (asks_pure _ _ _) fun found _ => ?_
          split <;> exact asks_pure _ _ _
        · refine asks_bind (asks_pure _ _ _) fun found _ => ?_
          split <;> exact asks_pure _ _ _

theorem asks_expressionLocation (hslash : ∀ e ∈ s.library.extensions, '/' ∉ e) (d : Document)
    (p : CursorPosition) : (s.workspace.expressionLocation d p).Asks s.directAnswer s.Admits := by
  unfold Workspace.expressionLocation
  split
  · exact asks_pure _ _ _
  · refine asks_bind (asks_libraryTarget? _) fun target htarget => ?_
    split
    · exact asks_bind (asks_targetLocation (isModulePath_of_libraryTarget? hslash htarget))
        fun _ _ => asks_pure _ _ _
    · exact asks_pure _ _ _

theorem asks_definition (hslash : ∀ e ∈ s.library.extensions, '/' ∉ e) (d : Document)
    (p : CursorPosition) : (s.workspace.definition d p).Asks s.directAnswer s.Admits := by
  unfold Workspace.definition
  split
  · exact asks_expressionLocation hslash d p
  · refine asks_bind s.asks_checkpoint fun _ _ => asks_bind (s.asks_probe _) fun path _ => ?_
    split
    · exact asks_pure _ _ _
    · exact asks_expressionLocation hslash d p

/-! Signatures. -/

theorem asks_signature? (hslash : ∀ e ∈ s.library.extensions, '/' ∉ e) (dotted : Text)
    (forCall : Bool) : (s.workspace.signature? dotted forCall).Asks s.directAnswer s.Admits := by
  unfold Workspace.signature?
  split
  · exact asks_pure _ _ _
  · split
    · exact asks_pure _ _ _
    · refine asks_bind (asks_libraryTarget? _) fun target htarget => ?_
      split
      · exact asks_pure _ _ _
      · refine asks_bind (asks_targetSymbol? (isModulePath_of_libraryTarget? hslash htarget))
          fun symbol _ => ?_
        split <;> exact asks_pure _ _ _

theorem asks_inquire (hslash : ∀ e ∈ s.library.extensions, '/' ∉ e) (d : Document)
    (p : CursorPosition) (k : RequestKind) :
    (s.workspace.inquire d p k).Asks s.directAnswer s.Admits := by
  cases k with
  | complete => exact asks_bind (asks_complete hslash d p) fun _ _ => asks_pure _ _ _
  | definition => exact asks_bind (asks_definition hslash d p) fun _ _ => asks_pure _ _ _
  | hover =>
    refine asks_bind ?_ fun _ _ => asks_pure _ _ _
    unfold Workspace.hover
    split
    · exact asks_pure _ _ _
    · exact asks_bind (asks_signature? hslash _ _) fun _ _ => asks_pure _ _ _
  | signatureHelp =>
    refine asks_bind ?_ fun _ _ => asks_pure _ _ _
    unfold Workspace.signatureHelp
    split
    · exact asks_pure _ _ _
    · exact asks_bind (asks_signature? hslash _ _) fun _ _ => asks_pure _ _ _

end Session
end EditorInsight
