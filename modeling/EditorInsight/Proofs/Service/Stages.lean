import EditorInsight.Service.Inquiry

/-!
# The order of questions

A request asks for the importable names at most once, and for an outline at most once and last: with the
outline in hand it only puts its result together.
-/

namespace EditorInsight

/-- How far an inquiry has come: nothing asked of the caches yet, the names known, the outline known. -/
inductive Stage where
  | start
  | listed
  | outlined

namespace Stage

/-- Whether the question may be asked at this stage. -/
def Permits : Stage → ServiceQuestion → Prop
  | .outlined, _ => False
  | .listed, .imports => False
  | _, _ => True

def after (stage : Stage) : ServiceQuestion → Stage
  | .imports => .listed
  | .outline _ => .outlined
  | _ => stage

end Stage

namespace Inquiry

variable {α β : Type} {stage : Stage}

/-- Whatever is answered, every question is permitted when it is asked, and the result satisfies `post` at
the stage where it is given. -/
def Orderly (post : Stage → α → Prop) : Stage → Inquiry α → Prop
  | stage, .done a => post stage a
  | stage, .ask q next => stage.Permits q ∧ ∀ a, Orderly post (stage.after q) (next a)

theorem orderly_pure {post : Stage → α → Prop} {a : α} (h : post stage a) : Orderly post stage (pure a) := h

theorem orderly_bind {post : Stage → β → Prop} {f : α → Inquiry β} {d : Inquiry α}
    (h : Orderly (fun stage a => Orderly post stage (f a)) stage d) : Orderly post stage (d >>= f) := by
  change Orderly post stage (d.bind f)
  induction d generalizing stage with
  | done a => exact h
  | ask q next ih =>
    obtain ⟨hq, hnext⟩ := h
    exact ⟨hq, fun a => ih a (hnext a)⟩

theorem orderly_checkpoint {post : Stage → Unit → Prop} (hstage : stage ≠ .outlined) (h : ∀ u, post stage u) :
    Orderly post stage checkpoint := by
  refine ⟨?_, h⟩
  cases stage with
  | outlined => exact absurd rfl hstage
  | start => trivial
  | listed => trivial

theorem orderly_imports {post : Stage → List Text → Prop} (h : ∀ names, post .listed names) :
    Orderly post .start imports := ⟨trivial, h⟩

theorem orderly_outline {post : Stage → Outline → Prop} {path : Text} (hstage : stage ≠ .outlined)
    (h : ∀ o, post .outlined o) : Orderly post stage (outline path) := by
  refine ⟨?_, h⟩
  cases stage with
  | outlined => exact absurd rfl hstage
  | start => trivial
  | listed => trivial

theorem orderly_probe {post : Stage → α → Prop} {p : Probe α} (hstage : stage ≠ .outlined)
    (h : ∀ a, post stage a) : Orderly post stage (probe p) := by
  have hpermits (q : FileQuestion) : stage.Permits (.file q) := by
    cases stage with
    | outlined => exact absurd rfl hstage
    | start => trivial
    | listed => trivial
  induction p with
  | done a => exact h a
  | ask q next ih => exact ⟨hpermits q, ih⟩

end Inquiry

namespace Workspace

open Inquiry

variable {w : Workspace}

theorem orderly_libraryTarget? {post : Stage → Option Target → Prop} {dotted : Text}
    (hnone : post .start none) (h : ∀ t, post .listed t) :
    Orderly post .start (w.libraryTarget? dotted) := by
  unfold libraryTarget?
  split
  · exact orderly_pure hnone
  · apply orderly_bind
    refine orderly_checkpoint (by simp) fun _ => ?_
    apply orderly_bind
    apply orderly_imports
    intro names
    split
    · apply orderly_bind
      refine orderly_checkpoint (by simp) fun _ => ?_
      exact orderly_probe (by simp) h
    · exact orderly_pure (h none)

theorem orderly_targetSymbol? {post : Stage → Option Symbol → Prop} (t : Target)
    (hnone : post .listed none) (h : ∀ symbol, post .outlined symbol) :
    Orderly post .listed (targetSymbol? t) := by
  unfold targetSymbol?
  split
  · exact orderly_pure hnone
  · apply orderly_bind
    refine orderly_outline (by simp) fun o => ?_
    exact orderly_pure (h _)
  · apply orderly_bind
    refine orderly_outline (by simp) fun o => ?_
    exact orderly_pure (h _)

theorem orderly_methodItems {post : Stage → List CompletionItem → Prop} (chain : Text)
    (h : ∀ stage items, post stage items) : Orderly post .listed (w.methodItems chain) := by
  apply orderly_bind
  refine orderly_probe (by simp) fun target => ?_
  split
  · apply orderly_bind
    refine orderly_outline (by simp) fun o => ?_
    exact orderly_pure (h _ _)
  · exact orderly_pure (h _ _)

theorem orderly_libraryItems {post : Stage → List CompletionItem → Prop} (chain : Text)
    (h : ∀ stage items, post stage items) : Orderly post .start (w.libraryItems chain) := by
  unfold libraryItems
  split
  · exact orderly_pure (h _ _)
  · apply orderly_bind
    apply orderly_imports
    intro names
    split
    · apply orderly_bind
      refine orderly_checkpoint (by simp) fun _ => ?_
      apply orderly_bind
      refine orderly_probe (by simp) fun item => ?_
      split
      · apply orderly_bind
        refine orderly_checkpoint (by simp) fun _ => ?_
        apply orderly_bind
        refine orderly_probe (by simp) fun children => ?_
        exact orderly_pure (h _ _)
      · apply orderly_bind
        refine orderly_outline (by simp) fun o => ?_
        exact orderly_pure (h _ _)
      · exact orderly_methodItems chain h
    · exact orderly_pure (h _ _)

theorem orderly_complete {post : Stage → List CompletionItem → Prop} (d : Document) (p : CursorPosition)
    (h : ∀ stage items, post stage items) : Orderly post .start (w.complete d p) := by
  unfold complete
  split
  · apply orderly_bind
    apply orderly_imports
    intro names
    exact orderly_pure (h _ _)
  · split
    · exact orderly_pure (h _ _)
    · exact orderly_libraryItems _ h

theorem orderly_targetLocation {post : Stage → Location → Prop} (t : Target)
    (h : ∀ stage location, post stage location) : Orderly post .listed (targetLocation t) := by
  unfold targetLocation
  split
  · exact orderly_pure (h _ _)
  · apply orderly_bind
    refine orderly_checkpoint (by simp) fun _ => ?_
    apply orderly_bind
    refine orderly_probe (by simp) fun text => ?_
    split
    · exact orderly_pure (h _ _)
    · dsimp only
      split
      · apply orderly_bind
        apply orderly_pure
        split <;> exact orderly_pure (h _ _)
      · apply orderly_bind
        apply orderly_pure
        split <;> exact orderly_pure (h _ _)
      · apply orderly_bind
        refine orderly_outline (by simp) fun o => ?_
        split
        · apply orderly_bind
          apply orderly_pure
          split <;> exact orderly_pure (h _ _)
        · apply orderly_bind
          apply orderly_pure
          split <;> exact orderly_pure (h _ _)

theorem orderly_expressionLocation {post : Stage → Except Uri.Fault (Option Location) → Prop}
    (d : Document) (p : CursorPosition) (h : ∀ stage location, post stage location) :
    Orderly post .start (w.expressionLocation d p) := by
  unfold expressionLocation
  split
  · exact orderly_pure (h _ _)
  · apply orderly_bind
    apply orderly_libraryTarget?
    · exact orderly_pure (h _ _)
    · intro target
      split
      · apply orderly_bind
        apply orderly_targetLocation
        intro stage location
        exact orderly_pure (h _ _)
      · exact orderly_pure (h _ _)

theorem orderly_definition {post : Stage → Except Uri.Fault (Option Location) → Prop} (d : Document)
    (p : CursorPosition) (h : ∀ stage location, post stage location) :
    Orderly post .start (w.definition d p) := by
  unfold definition
  split
  · exact orderly_expressionLocation d p h
  · apply orderly_bind
    refine orderly_checkpoint (by simp) fun _ => ?_
    apply orderly_bind
    refine orderly_probe (by simp) fun path => ?_
    split
    · exact orderly_pure (h _ _)
    · exact orderly_expressionLocation d p h

theorem orderly_signature? {post : Stage → Except ParameterFault (Option Text) → Prop} (dotted : Text)
    (forCall : Bool) (h : ∀ stage signature, post stage signature) :
    Orderly post .start (w.signature? dotted forCall) := by
  unfold signature?
  split
  · exact orderly_pure (h _ _)
  · split
    · exact orderly_pure (h _ _)
    · apply orderly_bind
      apply orderly_libraryTarget?
      · exact orderly_pure (h _ _)
      · intro target
        split
        · exact orderly_pure (h _ _)
        · apply orderly_bind
          apply orderly_targetSymbol?
          · exact orderly_pure (h _ _)
          · intro symbol
            split
            · exact orderly_pure (h _ _)
            · exact orderly_pure (h _ _)

/-- Every request asks its questions in order. -/
theorem orderly_inquire (d : Document) (p : CursorPosition) (k : RequestKind) :
    Orderly (fun _ _ => True) .start (w.inquire d p k) := by
  cases k with
  | complete =>
    apply orderly_bind
    apply orderly_complete
    intro stage items
    trivial
  | definition =>
    apply orderly_bind
    apply orderly_definition
    intro stage location
    trivial
  | hover =>
    apply orderly_bind
    unfold hover
    split
    · trivial
    · apply orderly_bind
      apply orderly_signature?
      intro stage signature
      trivial
  | signatureHelp =>
    apply orderly_bind
    unfold signatureHelp
    split
    · trivial
    · apply orderly_bind
      apply orderly_signature?
      intro stage signature
      trivial

end Workspace
end EditorInsight
