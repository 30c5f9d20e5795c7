import VariantCache.Engine.Basic
import VariantCache.Number.Total

/-!
# Metrics

What the library counts, under the names by which it is published.
-/

namespace VariantCache.Engine

open Store

/-- How a metric is published. -/
structure MetricDescription where
  name : String
  /-- A counter, or a histogram of durations. -/
  kind : String
  unit : String
  help : String

/-- Every metric. -/
def metricDescriptions : List MetricDescription :=
  [⟨"repcache_hit_total", "counter", "count",
      "Total number of requests served from a stored representation."⟩,
    ⟨"repcache_miss_total", "counter", "count",
      "Total number of requests that ran the producer."⟩,
    ⟨"repcache_store_dropped_total", "counter", "count",
      "Total number of stores dropped because the write buffer was full."⟩,
    ⟨"repcache_evict_total", "counter", "count",
      "Total number of representations evicted for expiry or capacity."⟩,
    ⟨"repcache_reencode_total", "counter", "count",
      "Total number of bodies produced by re-encoding a stored coding."⟩,
    ⟨"repcache_not_acceptable_total", "counter", "count",
      "Total number of requests answered with 406 Not Acceptable."⟩,
    ⟨"repcache_produce_ms", "histogram", "milliseconds",
      "Producer latency on cache misses in milliseconds."⟩]

/-- The expired entries that a store has removed. -/
def expiredCount : Leaf → Nat
  | .map m => m.evictions
  | .bounded _ => 0

/-- The entries that a store has removed for their size. -/
def oversizeCount : Leaf → Nat
  | .map _ => 0
  | .bounded b => b.evictions

/-- The stores that a store has dropped. -/
def droppedCount : Leaf → Nat
  | .map _ => 0
  | .bounded b => b.dropped

/-- The totals of all metrics that have happened, with their labels. -/
def totals (e : Engine) : List (String × Nat) :=
  let leaves := (e.backend.map (·.leaves)).getD []
  let sum (f : Leaf → Nat) : Nat := total (leaves.map f)
  let conversions := Coding.all.map fun c =>
    ("repcache_reencode_total\x7bto=" ++ c.name ++ "\x7d", e.shelf.conversions.count c)
  let all := [
    ("repcache_hit_total", e.counts.hits),
    ("repcache_miss_total", e.counts.misses),
    ("repcache_not_acceptable_total\x7bdimension=content\x7d", e.counts.noVariant),
    ("repcache_not_acceptable_total\x7bdimension=encoding\x7d", e.counts.noCoding),
    ("repcache_produce_ms", e.counts.productions),
    ("repcache_evict_total\x7bbackend=map\x7d", sum expiredCount),
    ("repcache_evict_total\x7bbackend=bounded\x7d", sum oversizeCount),
    ("repcache_store_dropped_total\x7bbackend=bounded\x7d", sum droppedCount)]
  (all ++ conversions).filter (·.2 != 0)

end VariantCache.Engine
