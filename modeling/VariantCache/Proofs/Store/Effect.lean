import VariantCache.Proofs.Store.Versions

/-!
# What happens to a bounded store

A bounded store has a front, which is its queue, its count of dropped stores and its
worker, and behind it the entries with their index of groups. What happens behind the
front is a list of effects: stores are applied, keys and groups are deleted, the store is
swept, entries are evicted. The effects depend on nothing at the front
(`replay_withFront`), so the entries are at any time what the effects so far make of them.

The books of a store relate two of its states to what happened in between (`Books`). They
balance for each thing that can happen (`Books.offer`, `Books.effect`, `Books.setWorker`,
`Books.drain`), and so for one thing after the other (`Books.trans`).
-/

namespace VariantCache.Store

/-! ### Effects -/

/-- What can happen to the entries of a bounded store. -/
inductive Effect where
  | apply (shelf : Shelf) (now : Instant) (entry : CacheKey × Shared)
  | delete (key : CacheKey)
  | deleteGroup (now : Instant) (name : String)
  | sweep (now : Instant)
  /-- Entries are given up for want of room. -/
  | evict (keep : CacheKey → Held → Bool)

namespace Effect

/-- A store after an effect. -/
def perform (b : BoundedStore) : Effect → BoundedStore
  | apply shelf now entry => b.apply shelf now entry
  | delete key => b.delete key
  | deleteGroup now name => b.deleteGroup now name
  | sweep now => b.sweep now
  | evict keep =>
    let entries := b.entries.filter keep
    { b with entries, evictions := b.evictions + (b.entries.size - entries.size) }

/-- The store of a client that is applied. -/
def applied? : Effect → Option (CacheKey × Shared)
  | apply _ _ entry => some entry
  | delete _ | deleteGroup _ _ | sweep _ | evict _ => none

/-- The stores that are applied, in order. -/
def applied (history : List Effect) : List (CacheKey × Shared) := history.filterMap applied?

theorem applied_append (first second : List Effect) :
    applied (first ++ second) = applied first ++ applied second := List.filterMap_append

end Effect

namespace BoundedStore

variable {b c d front : BoundedStore}

/-- The store after some effects. -/
def replay (b : BoundedStore) (history : List Effect) : BoundedStore :=
  history.foldl Effect.perform b

/-- The entries of a store behind the front of another one. -/
def withFront (b front : BoundedStore) : BoundedStore :=
  { b with queue := front.queue, dropped := front.dropped, worker := front.worker }

/-- An effect neither depends on the front nor changes it. -/
theorem perform_withFront (b front : BoundedStore) (e : Effect) :
    e.perform (b.withFront front) = (e.perform b).withFront front := by
  cases e <;> rfl

theorem replay_withFront (b front : BoundedStore) (history : List Effect) :
    (b.withFront front).replay history = (b.replay history).withFront front := by
  unfold replay
  induction history generalizing b with
  | nil => rfl
  | cons e history ih => rw [List.foldl_cons, perform_withFront, ih, List.foldl_cons]

theorem replay_append (b : BoundedStore) (first second : List Effect) :
    b.replay (first ++ second) = (b.replay first).replay second := List.foldl_append

theorem limits_replay (b : BoundedStore) (history : List Effect) :
    (b.replay history).limits = b.limits := by
  unfold replay
  induction history generalizing b with
  | nil => rfl
  | cons e history ih => rw [List.foldl_cons, ih]; cases e <;> rfl

/-- The effects of applying the stores that wait. -/
def backlog (b : BoundedStore) (shelf : Shelf) (now : Instant) : List Effect :=
  b.queue.map (.apply shelf now)

theorem applied_backlog (b : BoundedStore) (shelf : Shelf) (now : Instant) :
    Effect.applied (b.backlog shelf now) = b.queue := by
  rw [backlog, Effect.applied, List.filterMap_map]
  exact List.filterMap_some

theorem drain_eq_replay (b : BoundedStore) (shelf : Shelf) (now : Instant) :
    b.drain shelf now = (b.replay (b.backlog shelf now)).withFront { b with queue := [] } := by
  rw [← replay_withFront, replay, backlog, List.foldl_map]
  rfl

/-! ### Books -/

/-- The second store comes from the first: some stores were offered, those in `accepted` were not
dropped, and the effects in `history` took place. -/
structure Books (b c : BoundedStore) (offered accepted : List (CacheKey × Shared))
    (history : List Effect) : Prop where
  /-- Behind the front there is what the effects make of what was there. -/
  held : c = (b.replay history).withFront c
  period : c.worker.period = b.worker.period
  /-- The queue stays within its limit. -/
  fits : b.queue.length ≤ b.limits.writeBuffer → c.queue.length ≤ c.limits.writeBuffer
  /-- What waited and what was accepted has been applied in this order, or waits. -/
  order : b.queue ++ accepted = Effect.applied history ++ c.queue
  /-- Every store that was offered is accounted for. -/
  count : b.dropped + b.queue.length + offered.length =
    c.dropped + (Effect.applied history).length + c.queue.length

namespace Books

variable {offered offered' accepted accepted' : List (CacheKey × Shared)}
  {history history' : List Effect}

theorem limits (h : Books b c offered accepted history) : c.limits = b.limits := by
  rw [h.held, withFront, limits_replay]

theorem refl (b : BoundedStore) : Books b b [] [] [] :=
  ⟨rfl, rfl, id, by simp [Effect.applied], by simp [Effect.applied]⟩

theorem trans (h : Books b c offered accepted history)
    (h' : Books c d offered' accepted' history') :
    Books b d (offered ++ offered') (accepted ++ accepted') (history ++ history') where
  held := calc
    d = (c.replay history').withFront d := h'.held
    _ = (((b.replay history).withFront c).replay history').withFront d := by rw [← h.held]
    _ = (((b.replay history).replay history').withFront c).withFront d := by rw [replay_withFront]
    _ = (b.replay (history ++ history')).withFront d := by rw [replay_append]; rfl
  period := h'.period.trans h.period
  fits fit := h'.fits (h.fits fit)
  order := by
    rw [← List.append_assoc, h.order, List.append_assoc, h'.order, Effect.applied_append,
      List.append_assoc]
  count := by
    have first := h.count
    have second := h'.count
    rw [Effect.applied_append, List.length_append, List.length_append]
    omega

/-! ### What can happen -/

/-- A store that is offered is dropped when the queue is full, and waits otherwise. -/
theorem offer (b : BoundedStore) (key : CacheKey) (s : Shared) :
    Books b (b.store key s) [(key, s)]
      (if (b.store key s).dropped = b.dropped then [(key, s)] else []) [] := by
  unfold store
  split
  · next room =>
    rw [if_pos rfl]
    refine ⟨rfl, rfl, fun _ => ?_, rfl, ?_⟩
    · rw [List.length_append]
      exact room
    · simp only [Effect.applied, List.filterMap_nil, List.length_append, List.length_cons,
        List.length_nil]
      omega
  · rw [if_neg (Nat.succ_ne_self b.dropped)]
    refine ⟨rfl, rfl, id, by simp [Effect.applied], ?_⟩
    simp only [Effect.applied, List.filterMap_nil, List.length_cons, List.length_nil]
    omega

/-- An effect that applies nothing leaves the front as it is. -/
theorem effect {e : Effect} (applies : e.applied? = none) (b : BoundedStore) :
    Books b (e.perform b) [] [] [e] := by
  have front : e.perform b = (e.perform b).withFront b := perform_withFront b b e
  have nothing : Effect.applied [e] = [] := by simp [Effect.applied, applies]
  have queue : (e.perform b).queue = b.queue := by rw [front]; rfl
  refine ⟨rfl, by rw [front]; rfl, fun fits => ?_, ?_, ?_⟩
  · rw [queue, show (e.perform b).limits = b.limits from limits_replay b [e]]
    exact fits
  · rw [nothing, queue, List.append_nil, List.nil_append]
  · rw [nothing, queue, front]
    rfl

theorem setWorker {worker : Worker} (b : BoundedStore) (period : worker.period = b.worker.period) :
    Books b { b with worker } [] [] [] :=
  ⟨rfl, period, id, by simp [Effect.applied], rfl⟩

/-- Applying what waits empties the queue. -/
theorem drain (b : BoundedStore) (shelf : Shelf) (now : Instant) :
    Books b (b.drain shelf now) [] [] (b.backlog shelf now) where
  held := by
    rw [drain_eq_replay]
    rfl
  period := by
    rw [drain_eq_replay]
    rfl
  fits _ := by simp [queue_drain]
  order := by rw [applied_backlog, queue_drain]
  count := by
    rw [applied_backlog, queue_drain, drain_eq_replay]
    rfl

end Books
end BoundedStore
end VariantCache.Store
