import EditorInsight.Cache.Slot

/-!
# Runs of cache operations

A run is a list of steps on a cache and a clock, which may show any reading after any other. The loader
of a look-up is itself a list of steps, so a run may look up other keys and invalidate while a load is
going on, and then gives a value or fails. A step that fails inside a loader ends it, and its failure
becomes that of the look-up.
-/

namespace EditorInsight

/-- One step of a run; `during` is what the loader does before its outcome, `none` being a failure. -/
inductive CacheStep (α : Type) where
  | get (key : Text) (during : List (CacheStep α)) (outcome : Option α)
  | peek (key : Text)
  | invalidate (key : Option Text)
  | size
  | statistics
  | ttl
  | advance (by_ : Quantity)
  | setClock (now : Quantity)

inductive CacheFault where
  | loaderFailed
  | nothingToEvict
  | clock (fault : Quantity.Fault)
  deriving DecidableEq

/-- What a step answers; a look-up tells what its loader did, or that it did not run. -/
inductive CacheAnswer (α : Type) where
  | got (value : α) (during : Option (List (CacheAnswer α)))
  | peeked (value : Option α)
  | done
  | size (n : Nat)
  | statistics (s : Statistics) (size : Nat)
  | ttl (q : Quantity)
  | failed (fault : CacheFault)

/-- A cache and the reading of its clock. -/
structure CacheRun (α : Type) where
  cache : KeyedCache α
  now : Quantity := .whole 0

namespace CacheRun

variable {α : Type}

def fault? : CacheAnswer α → Option CacheFault
  | .failed f => some f
  | _ => none

mutual

def step (s : CacheRun α) : CacheStep α → CacheRun α × CacheAnswer α
  | .get key during outcome =>
    match s.cache.lookup key s.now with
    | .error f => (s, .failed (.clock f))
    | .ok (.hit value cache) => ({ s with cache := cache }, .got value none)
    | .ok (.load ticket) =>
      match loading s during with
      | (s, _, some fault) => (s, .failed fault)
      | (s, answers, none) =>
        match outcome with
        | none => (s, .failed .loaderFailed)
        | some value =>
          let exhausted := s.cache.exhausts ticket
          let s := { s with cache := s.cache.settle ticket value }
          (s, if exhausted then .failed .nothingToEvict else .got value (some answers))
  | .peek key =>
    match s.cache.peek? key s.now with
    | .error f => (s, .failed (.clock f))
    | .ok value => (s, .peeked value)
  | .invalidate key => ({ s with cache := s.cache.invalidate key }, .done)
  | .size => (s, .size s.cache.size)
  | .statistics => (s, .statistics s.cache.statistics s.cache.size)
  | .ttl => (s, .ttl s.cache.ttl)
  | .advance d =>
    match s.now.add d with
    | .error f => (s, .failed (.clock f))
    | .ok now => ({ s with now }, .done)
  | .setClock now => ({ s with now }, .done)

/-- Carries out the steps of a loader up to the first that fails. -/
def loading (s : CacheRun α) :
    List (CacheStep α) → CacheRun α × List (CacheAnswer α) × Option CacheFault
  | [] => (s, [], none)
  | t :: r =>
    match step s t with
    | (s, .failed f) => (s, [], some f)
    | (s, a) =>
      match loading s r with
      | (s, answers, fault) => (s, a :: answers, fault)

end

def run (s : CacheRun α) : List (CacheStep α) → CacheRun α × List (CacheAnswer α)
  | [] => (s, [])
  | t :: r =>
    let (s, a) := step s t
    let (s, answers) := run s r
    (s, a :: answers)

end CacheRun

/-- One step of a run on a cache with one slot; a loader gives a list or fails. -/
inductive SlotStep where
  | get (key : Text) (outcome : Option (List Text))
  | invalidate (key : Option Text)
  | statistics
  | advance (by_ : Quantity)
  | setClock (now : Quantity)

inductive SlotAnswer where
  | got (names : List Text) (loaded : Bool)
  | done
  | statistics (s : Statistics) (size : Nat)
  | failed (fault : CacheFault)

structure SlotRun where
  cache : SlotCache
  now : Quantity := .whole 0

namespace SlotRun

def step (s : SlotRun) : SlotStep → SlotRun × SlotAnswer
  | .get key outcome =>
    match s.cache.lookup key s.now with
    | .error f => (s, .failed (.clock f))
    | .ok (.hit names cache) => ({ s with cache := cache }, .got names false)
    | .ok (.load ticket) =>
      match outcome with
      | none => (s, .failed .loaderFailed)
      | some names => ({ s with cache := s.cache.settle ticket names }, .got names true)
  | .invalidate key => ({ s with cache := s.cache.invalidate key }, .done)
  | .statistics => (s, .statistics s.cache.statistics s.cache.size)
  | .advance d =>
    match s.now.add d with
    | .error f => (s, .failed (.clock f))
    | .ok now => ({ s with now }, .done)
  | .setClock now => ({ s with now }, .done)

def run (s : SlotRun) : List SlotStep → SlotRun × List SlotAnswer
  | [] => (s, [])
  | t :: r =>
    let (s, a) := step s t
    let (s, answers) := run s r
    (s, a :: answers)

end SlotRun
end EditorInsight
