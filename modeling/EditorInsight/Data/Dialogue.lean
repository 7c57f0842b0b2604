/-!
# Dialogues

A dialogue is a computation that may ask questions and goes on with the answers. It does not say
where the answers come from: a fixed world answers by a function, a changing one in a monad. One
description of a request can so be run against a plain disk, or through caches.
-/

namespace EditorInsight

inductive Dialogue (Q : Type) (A : Q → Type) (α : Type) where
  | done (a : α)
  | ask (q : Q) (next : A q → Dialogue Q A α)

namespace Dialogue

variable {Q : Type} {A : Q → Type} {α β : Type}

def bind : Dialogue Q A α → (α → Dialogue Q A β) → Dialogue Q A β
  | .done a, f => f a
  | .ask q next, f => .ask q fun a => (next a).bind f

instance : Monad (Dialogue Q A) where
  pure := .done
  bind := bind

def question (q : Q) : Dialogue Q A (A q) := .ask q .done

/-- The result when each question is answered in a monad. -/
def run {m : Type → Type} [Monad m] (answer : (q : Q) → m (A q)) : Dialogue Q A α → m α
  | .done a => pure a
  | .ask q next => answer q >>= fun a => (next a).run answer

/-- The same dialogue with each question put through another dialogue. -/
def refine {R : Type} {B : R → Type} (f : (q : Q) → Dialogue R B (A q)) :
    Dialogue Q A α → Dialogue R B α
  | .done a => .done a
  | .ask q next => (f q).bind fun a => (next a).refine f

end Dialogue
end EditorInsight
