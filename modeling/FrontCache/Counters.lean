/-!
Counters of a cache: hits, misses, stored values, evictions, and values refused
by a check. The hit rate is the share of hits among lookups, 0 before any lookup.
-/
namespace FrontCache

structure Counters where
  hits : Nat := 0
  misses : Nat := 0
  inserts : Nat := 0
  evictions : Nat := 0
  rejected : Nat := 0
  deriving DecidableEq, Repr

namespace Counters

def hit (c : Counters) : Counters := { c with hits := c.hits + 1 }
def miss (c : Counters) : Counters := { c with misses := c.misses + 1 }
def insert (c : Counters) : Counters := { c with inserts := c.inserts + 1 }
def eviction (c : Counters) : Counters := { c with evictions := c.evictions + 1 }
def reject (c : Counters) : Counters := { c with rejected := c.rejected + 1 }

/-- Hits over lookups, as a float; 0 when there were no lookups. -/
def hitRate (c : Counters) : Float :=
  if c.hits + c.misses = 0 then 0.0 else c.hits.toFloat / (c.hits + c.misses).toFloat

end Counters

end FrontCache
