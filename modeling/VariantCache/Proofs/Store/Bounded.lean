import VariantCache.Proofs.Store.Grouping

/-!
# What loads of a bounded store find

As for a map store, each operation on a bounded store is given by what loads find after
it, and a store by what they find once it is applied. A sweep does nothing as long as the
entries that have not expired fit into the store together (`get?_sweep`), since an entry
that is too large for the store is too large already for all of them to fit.
-/

namespace VariantCache.Store

namespace BoundedStore

variable {b : BoundedStore} {now : Instant} {k : CacheKey}

/-- A store that is applied replaces what is found under its key, and nothing else. -/
theorem found_apply (b : BoundedStore) (shelf : Shelf) (now : Instant) (key k : CacheKey)
    (s : Shared) :
    (b.apply shelf now (key, s)).get? now k =
      if k = key then (some s).filter (fun s => now < s.details.expiration) else b.get? now k := by
  rw [get?, get?_apply, apply_ite (Option.filter _)]
  rfl

theorem found_delete (b : BoundedStore) (now : Instant) (key k : CacheKey) :
    (b.delete key).get? now k = if k = key then none else b.get? now k := by
  rw [get?, delete, Table.get?_erase]
  split <;> rfl

theorem found_later {later : Instant} (le : now ≤ later) :
    b.get? later k = (b.get? now k).filter fun s => later < s.details.expiration := by
  ext t
  rw [get?_eq_some_iff, Option.filter_eq_some_iff, get?_eq_some_iff, decide_eq_true_iff]
  exact ⟨fun h => ⟨⟨h.1, Instant.lt_of_le_of_lt le h.2⟩, h.2⟩, fun h => ⟨h.1.1, h.2⟩⟩

/-! ### Room -/

/-- The total size of the entries that have not expired. -/
def freshWeight (b : BoundedStore) (now : Instant) : Nat :=
  total ((b.entries.entries.filter fun entry => now < entry.2.shared.details.expiration).map
    (·.2.weight))

theorem weight_le_freshWeight {held : Held} (entry : b.entries.get? k = some held)
    (fresh : now < held.shared.details.expiration) : held.weight ≤ b.freshWeight now := by
  refine le_total_of_mem (List.mem_map.2 ⟨(k, held), List.mem_filter.2 ⟨?_, ?_⟩, rfl⟩)
  · exact (Table.get?_eq_some_iff _ _ _).1 entry
  · exact decide_eq_true fresh

/-- **While all entries fit, none is found that a sweep evicts.** -/
theorem get?_sweep (fits : b.freshWeight now ≤ b.limits.maxSize) :
    (b.sweep now).get? now k = b.get? now k := by
  have kept : (b.sweep now).entries.get? k =
      (b.entries.get? k).filter fun held => held.weight ≤ b.limits.maxSize :=
    Table.get?_filter _ _ _
  rw [get?, kept, get?]
  cases entry : b.entries.get? k with
  | none => rfl
  | some held =>
    by_cases fresh : now < held.shared.details.expiration
    · have small : held.weight ≤ b.limits.maxSize :=
        Nat.le_trans (weight_le_freshWeight entry fresh) fits
      rw [Option.filter_some, if_pos (decide_eq_true small)]
    · -- What has expired is not found, whether it is evicted or not.
      rw [Option.filter_some]
      split
      · rfl
      · rw [Option.map_some, Option.filter_some, if_neg (mt of_decide_eq_true fresh)]
        rfl

/-! ### Applying the queue -/

theorem drain_of_queue_eq_nil (drained : b.queue = []) (shelf : Shelf) (now : Instant) :
    b.drain shelf now = b := by
  cases b
  subst drained
  rfl

/-- A store that comes alone is applied when the writer is waited for. -/
theorem drain_store (drained : b.queue = []) (room : 0 < b.limits.writeBuffer) (key : CacheKey)
    (s : Shared) (shelf : Shelf) (now : Instant) :
    (b.store key s).drain shelf now = b.apply shelf now (key, s) := by
  have free : b.queue.length < b.limits.writeBuffer := by rwa [drained]
  have same : ({ b with queue := [] } : BoundedStore) = b := by rw [← drained]
  rw [store, if_pos free, drain, drained, List.nil_append, List.foldl_cons, List.foldl_nil]
  exact congrArg (apply · shelf now (key, s)) same

end BoundedStore

/-- The entries of a bounded store that have not expired fit into it together. -/
def Leaf.Fits (now : Instant) : Leaf → Prop
  | map _ => True
  | bounded b => b.freshWeight now ≤ b.limits.maxSize

instance (now : Instant) (l : Leaf) : Decidable (l.Fits now) :=
  match l with
  | .map _ => inferInstanceAs (Decidable True)
  | .bounded b => inferInstanceAs (Decidable (b.freshWeight now ≤ b.limits.maxSize))

end VariantCache.Store
