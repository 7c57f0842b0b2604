/-!
# Cache statistics
-/

namespace EditorInsight

structure Statistics where
  /-- Look-ups answered from the cache. -/
  hits : Nat := 0
  /-- Loads of a key that was not held. -/
  misses : Nat := 0
  /-- Loads of a key whose entry had expired. -/
  staleRefreshes : Nat := 0
  invalidations : Nat := 0
  deriving DecidableEq

end EditorInsight
