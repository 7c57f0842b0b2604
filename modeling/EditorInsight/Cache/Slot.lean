import EditorInsight.Cache.Keyed

/-!
# Caches with one slot

Holds the list of one key at a time. A look-up of another key, or of an expired one, loads; the loaded
list takes the slot whatever happened to it in between.
-/

namespace EditorInsight

/-- The list held, its key, and the clock reading of the look-up that loaded it. -/
structure SlotEntry where
  key : Text
  names : List Text
  loadedAt : Quantity
  deriving DecidableEq

structure SlotCache where
  ttl : Quantity := .whole 5000
  slot : Option SlotEntry := none
  statistics : Statistics := {}
  deriving DecidableEq

structure SlotTicket where
  key : Text
  startedAt : Quantity
  isRefresh : Bool
  deriving DecidableEq

inductive SlotLookup where
  | hit (names : List Text) (cache : SlotCache)
  | load (ticket : SlotTicket)

namespace SlotCache

def size (c : SlotCache) : Nat := if c.slot.isSome then 1 else 0

def lookup (c : SlotCache) (key : Text) (now : Quantity) : Except Quantity.Fault SlotLookup :=
  match c.slot with
  | none => .ok (.load ⟨key, now, false⟩)
  | some e =>
    if e.key = key then do
      if ← KeyedCache.isFresh c.ttl now e.loadedAt then
        return .hit e.names { c with statistics := { c.statistics with hits := c.statistics.hits + 1 } }
      else return .load ⟨key, now, true⟩
    else .ok (.load ⟨key, now, false⟩)

def settle (c : SlotCache) (ticket : SlotTicket) (names : List Text) : SlotCache :=
  { c with
    slot := some ⟨ticket.key, names, ticket.startedAt⟩
    statistics := KeyedCache.countLoad c.statistics ticket.isRefresh }

/-- Empties the slot if it belongs to the key, or in any case if none is given. -/
def invalidate (c : SlotCache) (key : Option Text) : SlotCache :=
  { c with
    slot := match key with
      | none => none
      | some k => c.slot.filter fun e => e.key ≠ k
    statistics := { c.statistics with invalidations := c.statistics.invalidations + 1 } }

end SlotCache
end EditorInsight
