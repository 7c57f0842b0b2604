import EditorInsight.Cache.Statistics
import EditorInsight.Numeric.Quantity
import EditorInsight.Text.Basic

/-!
# Keyed caches with expiry

Entries are kept from the least to the most recently used and expire after a fixed time. A look-up
either finds a fresh entry or hands out a ticket for loading; the loaded value is settled with that
ticket. In between, anything may happen to the cache: an invalidation raises the generation, and a
value loaded under an older generation is counted but not kept.
-/

namespace EditorInsight

/-- A value and the clock reading of the look-up that loaded it. -/
structure CacheEntry (α : Type) where
  loadedAt : Quantity
  value : α
  deriving DecidableEq

structure KeyedCache (α : Type) where
  ttl : Quantity := .whole 3000
  maxEntries : Int := 1000
  /-- From the least to the most recently used. -/
  entries : List (Text × CacheEntry α) := []
  generation : Nat := 0
  statistics : Statistics := {}
  deriving DecidableEq

/-- A look-up that found nothing fresh and has to load. -/
structure LoadTicket where
  key : Text
  startedAt : Quantity
  generation : Nat
  /-- Whether an expired entry was found. -/
  isRefresh : Bool
  deriving DecidableEq

inductive CacheLookup (α : Type) where
  | hit (value : α) (cache : KeyedCache α)
  | load (ticket : LoadTicket)

namespace KeyedCache

variable {α : Type}

/-- Whether an entry is younger than the time to live. -/
def isFresh (ttl now loadedAt : Quantity) : Except Quantity.Fault Bool := do
  return (← now.sub loadedAt).lt ttl

def size (c : KeyedCache α) : Nat := c.entries.length

def find? (c : KeyedCache α) (key : Text) : Option (CacheEntry α) :=
  (c.entries.find? fun e => e.1 = key).map Prod.snd

def without (entries : List (Text × CacheEntry α)) (key : Text) : List (Text × CacheEntry α) :=
  entries.filter fun e => e.1 ≠ key

/-- Looks a key up; a fresh entry becomes the most recently used. -/
def lookup (c : KeyedCache α) (key : Text) (now : Quantity) :
    Except Quantity.Fault (CacheLookup α) :=
  match c.find? key with
  | none => .ok (.load ⟨key, now, c.generation, false⟩)
  | some e => do
    if ← isFresh c.ttl now e.loadedAt then
      return .hit e.value { c with
        entries := without c.entries key ++ [(key, e)]
        statistics := { c.statistics with hits := c.statistics.hits + 1 } }
    else return .load ⟨key, now, c.generation, true⟩

def countLoad (s : Statistics) (isRefresh : Bool) : Statistics :=
  if isRefresh then { s with staleRefreshes := s.staleRefreshes + 1 }
  else { s with misses := s.misses + 1 }

/-- The most recent entries, as many as the limit allows. -/
def evict (limit : Int) (entries : List (Text × CacheEntry α)) : List (Text × CacheEntry α) :=
  entries.drop (entries.length - limit.toNat)

/-- Settles a load: counts it and, unless the cache was invalidated since, keeps the value. -/
def settle (c : KeyedCache α) (ticket : LoadTicket) (value : α) : KeyedCache α :=
  let c := { c with statistics := countLoad c.statistics ticket.isRefresh }
  if ticket.generation ≠ c.generation then c
  else
    let entries := without c.entries ticket.key ++ [(ticket.key, ⟨ticket.startedAt, value⟩)]
    { c with entries := evict c.maxEntries entries }

/-- Whether settling keeps on evicting after the last entry is gone: a negative limit is never met. -/
def exhausts (c : KeyedCache α) (ticket : LoadTicket) : Bool :=
  ticket.generation = c.generation && c.maxEntries < 0

/-- The fresh value of a key, with no effect on the cache. -/
def peek? (c : KeyedCache α) (key : Text) (now : Quantity) : Except Quantity.Fault (Option α) :=
  match c.find? key with
  | none => .ok none
  | some e => do return if ← isFresh c.ttl now e.loadedAt then some e.value else none

/-- Drops one entry, or all of them. -/
def invalidate (c : KeyedCache α) (key : Option Text) : KeyedCache α :=
  { c with
    entries := match key with
      | some k => without c.entries k
      | none => []
    generation := c.generation + 1
    statistics := { c.statistics with invalidations := c.statistics.invalidations + 1 } }

end KeyedCache
end EditorInsight
