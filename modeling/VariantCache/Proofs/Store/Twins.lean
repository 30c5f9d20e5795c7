import Mathlib.Data.List.Forall2
import VariantCache.Proofs.Shelf.Growth
import VariantCache.Proofs.Store.Versions

/-!
# Stores with the same content

A version says where its bodies stand. Two versions on two shelves are twins when they read
as one representation, wherever that stands on either shelf (`Twin`). Two stores are twins
when they hold twins under the same keys, in their tables and in their queues, and are the
same apart from that (`Leaf.Twins`); then all that can be seen of them is the same
(`Leaf.Twins.inventory`). Whatever is done with both keeps them twins: no operation looks
at a place, but at what stands there.
-/

namespace VariantCache

open Store

/-! ### Twin versions -/

/-- A version stands on a shelf, and reads as a representation. -/
structure Shelf.Has (shelf : Shelf) (s : Shared) (r : Representation) : Prop where
  place_lt : s.place < shelf.bodies.size
  read : shelf.read s = r

namespace Shelf.Has

variable {shelf larger : Shelf} {s : Shared} {r : Representation}

theorem details (h : shelf.Has s r) : s.details = r.details := h.read ▸ rfl

theorem grows (h : shelf.Has s r) (g : shelf.Grows larger) : larger.Has s r :=
  ⟨g.place_lt h.place_lt, (g.read h.place_lt).trans h.read⟩

theorem copy (h : shelf.Has s r) : (shelf.copy s).2.Has (shelf.copy s).1 r :=
  ⟨shelf.place_copy_lt s, (shelf.read_copy s).trans h.read⟩

end Shelf.Has

theorem Shelf.has_add (shelf : Shelf) (r : Representation) :
    (shelf.add r).2.Has (shelf.add r).1 r :=
  ⟨by simp [Shelf.add], congrArg (Representation.mk r.details) (shelf.bodiesOf_add r)⟩

/-- Two versions read as one representation. -/
def Twin (shelf shelf' : Shelf) (s s' : Shared) : Prop := ∃ r, shelf.Has s r ∧ shelf'.Has s' r

namespace Twin

variable {shelf larger shelf' larger' : Shelf} {s s' : Shared}

theorem grows (h : Twin shelf shelf' s s') (g : shelf.Grows larger) (g' : shelf'.Grows larger') :
    Twin larger larger' s s' := by
  obtain ⟨r, has, has'⟩ := h
  exact ⟨r, has.grows g, has'.grows g'⟩

theorem read (h : Twin shelf shelf' s s') : shelf.read s = shelf'.read s' := by
  obtain ⟨r, has, has'⟩ := h
  exact has.read.trans has'.read.symm

theorem details (h : Twin shelf shelf' s s') : s.details = s'.details := by
  obtain ⟨r, has, has'⟩ := h
  exact has.details.trans has'.details.symm

theorem weightOf (h : Twin shelf shelf' s s') : weightOf shelf s = weightOf shelf' s' := by
  rw [Store.weightOf, Store.weightOf, Shelf.sizeOf, Shelf.sizeOf, h.read]

end Twin

/-! ### Related lists and tables -/

section

variable {α β γ δ : Type} {R : α → β → Prop} {l : List α} {l' : List β}

theorem map_eq_of_forall₂ {f : α → γ} {g : β → γ} (h : List.Forall₂ R l l')
    (same : ∀ a b, R a b → f a = g b) : l.map f = l'.map g := by
  induction h with
  | nil => rfl
  | cons related _ ih => rw [List.map_cons, List.map_cons, same _ _ related, ih]

theorem forall₂_mapIdx {S : γ → δ → Prop} {f : Nat → α → γ} {g : Nat → β → δ}
    (h : List.Forall₂ R l l') (step : ∀ number a b, R a b → S (f number a) (g number b)) :
    List.Forall₂ S (l.mapIdx f) (l'.mapIdx g) := by
  induction h generalizing f g with
  | nil => exact .nil
  | cons related _ ih =>
    rw [List.mapIdx_cons, List.mapIdx_cons]
    exact .cons (step 0 _ _ related) (ih fun number => step (number + 1))

theorem forall_mem_of_forall₂ {P : α → Prop} {Q : β → Prop} (h : List.Forall₂ R l l')
    (both : ∀ a b, R a b → P a ∧ Q b) : (∀ a ∈ l, P a) ∧ ∀ b ∈ l', Q b := by
  induction h with
  | nil => exact ⟨List.forall_mem_nil P, List.forall_mem_nil Q⟩
  | cons related _ ih =>
    exact ⟨List.forall_mem_cons.2 ⟨(both _ _ related).1, ih.1⟩,
      List.forall_mem_cons.2 ⟨(both _ _ related).2, ih.2⟩⟩

theorem getElem?_of_forall₂ (h : List.Forall₂ R l l') (number : Nat) :
    Option.Rel R l[number]? l'[number]? := by
  induction h generalizing number with
  | nil => exact .none
  | cons related _ ih =>
    cases number with
    | zero => exact .some related
    | succ number => exact ih number

end

namespace Table

variable {K V W : Type} {R S : V → W → Prop} {t : Table K V} {u : Table K W}

/-- The tables have the same keys in the same order, and related values. -/
def Rel (R : V → W → Prop) (t : Table K V) (u : Table K W) : Prop :=
  List.Forall₂ (fun entry other => entry.1 = other.1 ∧ R entry.2 other.2) t.entries u.entries

theorem Rel.imp (h : t.Rel R u) (weaker : ∀ v w, R v w → S v w) : t.Rel S u :=
  List.Forall₂.imp (fun _ _ same => ⟨same.1, weaker _ _ same.2⟩) h

theorem Rel.size (h : t.Rel R u) : t.size = u.size := List.Forall₂.length_eq h

variable [DecidableEq K]

theorem Rel.get? (h : t.Rel R u) (key : K) : Option.Rel R (t.get? key) (u.get? key) := by
  obtain ⟨entries, _⟩ := t
  obtain ⟨others, _⟩ := u
  simp only [Rel] at h
  simp only [Table.get?]
  clear * - h
  induction h with
  | nil => exact .none
  | @cons entry other rest others same _ ih =>
    rw [List.find?_cons, List.find?_cons, ← same.1]
    by_cases here : entry.1 = key
    · simp only [here, beq_self_eq_true]
      exact .some same.2
    · simp only [beq_eq_false_iff_ne.2 here]
      exact ih

omit [DecidableEq K] in
theorem Rel.filter (h : t.Rel R u) {keep : K → V → Bool} {keep' : K → W → Bool}
    (same : ∀ key v w, R v w → keep key v = keep' key w) :
    (t.filter keep).Rel R (u.filter keep') := by
  refine List.rel_filter (fun entry other related => ?_) h
  show keep entry.1 entry.2 = true ↔ keep' other.1 other.2 = true
  rw [related.1, same other.1 _ _ related.2]

theorem Rel.erase (h : t.Rel R u) (key : K) : (t.erase key).Rel R (u.erase key) :=
  h.filter fun _ _ _ _ => rfl

theorem Rel.insert (h : t.Rel R u) (key : K) {v : V} {w : W} (related : R v w) :
    (t.insert key v).Rel R (u.insert key w) :=
  .cons ⟨rfl, related⟩ (h.erase key)

theorem Rel.eraseAll (h : t.Rel R u) (keys : List K) : (t.eraseAll keys).Rel R (u.eraseAll keys) := by
  unfold Table.eraseAll
  induction keys generalizing t u with
  | nil => exact h
  | cons key keys ih => exact ih (h.erase key)

end Table

namespace Store

/-! ### Twin map stores -/

/-- Two map stores hold twins under the same keys, and are the same apart from that. -/
structure MapStore.Twins (shelf shelf' : Shelf) (m m' : MapStore) : Prop where
  entries : m.entries.Rel (Twin shelf shelf') m'.entries
  groups : m.groups = m'.groups
  evictions : m.evictions = m'.evictions
  worker : m.worker = m'.worker

namespace MapStore.Twins

variable {shelf larger shelf' larger' : Shelf} {m m' : MapStore} {s s' : Shared}

theorem grows (h : m.Twins shelf shelf' m') (g : shelf.Grows larger) (g' : shelf'.Grows larger') :
    m.Twins larger larger' m' :=
  { h with entries := h.entries.imp fun _ _ twin => twin.grows g g' }

/-- The index of groups is checked against the same. -/
theorem members (h : m.Twins shelf shelf' m') : m.members = m'.members := by
  funext group key
  have found := h.entries.get? key
  unfold MapStore.members
  generalize m.entries.get? key = stored at *
  generalize m'.entries.get? key = stored' at *
  cases found with
  | none => rfl
  | @some s s' twin =>
    rw [Option.filter_some, Option.filter_some, twin.details]
    split
    · exact congrArg (fun d : Details => some d.expiration) twin.details
    · rfl

/-- What is made of the index of groups is made of both. -/
theorem regroup (h : m.Twins shelf shelf' m') (f : GroupIndex → Membership → GroupIndex) :
    { m with groups := f m.groups m.members }.Twins shelf shelf'
      { m' with groups := f m'.groups m'.members } :=
  { h with groups := by rw [h.members, h.groups] }

theorem load (h : m.Twins shelf shelf' m') (now : Instant) (key : CacheKey) :
    Option.Rel (Twin shelf shelf') (m.load now key).1 (m'.load now key).1 ∧
      (m.load now key).2.Twins shelf shelf' (m'.load now key).2 := by
  have found := h.entries.get? key
  unfold MapStore.load
  generalize m.entries.get? key = stored at *
  generalize m'.entries.get? key = stored' at *
  cases found with
  | none => exact ⟨.none, h⟩
  | @some s s' twin =>
    simp only [← twin.details]
    by_cases expired : s.details.expiredAt now = true
    · simp only [expired, if_true]
      exact ⟨.none, h.entries.erase key, h.groups, congrArg (· + 1) h.evictions, h.worker⟩
    · simp only [expired]
      exact ⟨.some twin, h⟩

theorem store (h : m.Twins shelf shelf' m') (twin : Twin shelf shelf' s s') (now : Instant)
    (key : CacheKey) : (m.store now key s).Twins shelf shelf' (m'.store now key s') := by
  have inserted : { m with entries := m.entries.insert key s }.Twins shelf shelf'
      { m' with entries := m'.entries.insert key s' } :=
    { h with entries := h.entries.insert key twin }
  have groups := inserted.regroup fun index members =>
    index.addAll s.details.groups key s.details.expiration now members
  unfold MapStore.store
  rw [← twin.details]
  exact groups

theorem delete (h : m.Twins shelf shelf' m') (key : CacheKey) :
    (m.delete key).Twins shelf shelf' (m'.delete key) :=
  { h with entries := h.entries.erase key }

theorem deleteGroup (h : m.Twins shelf shelf' m') (now : Instant) (name : String) :
    (m.deleteGroup now name).Twins shelf shelf' (m'.deleteGroup now name) := by
  unfold MapStore.deleteGroup
  rw [h.members, h.groups]
  exact { h with entries := h.entries.eraseAll _, groups := rfl }

theorem sweep (h : m.Twins shelf shelf' m') (now : Instant) :
    (m.sweep now).2.Twins shelf shelf' (m'.sweep now).2 := by
  have fresh : (m.entries.filter fun _ s => !s.details.expiredAt now).Rel (Twin shelf shelf')
      (m'.entries.filter fun _ s => !s.details.expiredAt now) :=
    h.entries.filter fun _ _ _ twin => by rw [twin.details]
  have left : MapStore.Twins shelf shelf'
      { m with
        entries := m.entries.filter fun _ s => !s.details.expiredAt now
        evictions := m.evictions +
          (m.entries.size - (m.entries.filter fun _ s => !s.details.expiredAt now).size) }
      { m' with
        entries := m'.entries.filter fun _ s => !s.details.expiredAt now
        evictions := m'.evictions +
          (m'.entries.size - (m'.entries.filter fun _ s => !s.details.expiredAt now).size) } :=
    ⟨fresh, h.groups, by rw [h.evictions, h.entries.size, fresh.size], h.worker⟩
  exact left.regroup fun index members => index.pruneAll now members

theorem group (h : m.Twins shelf shelf' m') (now : Instant) (name : String) :
    (m.group now name).2.Twins shelf shelf' (m'.group now name).2 :=
  h.regroup fun index members => index.prune name now members

theorem setWorker (h : m.Twins shelf shelf' m') (worker : Worker) :
    { m with worker }.Twins shelf shelf' { m' with worker } :=
  { h with worker := rfl }

theorem runUntil (h : m.Twins shelf shelf' m') (now : Instant) :
    (m.runUntil now).Twins shelf shelf' (m'.runUntil now) := by
  unfold MapStore.runUntil
  rw [h.worker]
  obtain ⟨sweeps, worker⟩ := m'.worker.runUntil now
  have run := h.setWorker worker
  cases sweeps with
  | true => exact run.sweep now
  | false => exact run

end MapStore.Twins

/-! ### Twin bounded stores -/

/-- Entries of bounded stores with twins, and of one weight. -/
def Held.Twins (shelf shelf' : Shelf) (held held' : Held) : Prop :=
  Twin shelf shelf' held.shared held'.shared ∧ held.weight = held'.weight

/-- Queues with twins under the same keys. -/
def TwinQueues (shelf shelf' : Shelf) (queue queue' : List (CacheKey × Shared)) : Prop :=
  List.Forall₂ (fun entry entry' => entry.1 = entry'.1 ∧ Twin shelf shelf' entry.2 entry'.2) queue
    queue'

/-- Two bounded stores hold twins under the same keys, in their tables and in their queues, and are
the same apart from that. -/
structure BoundedStore.Twins (shelf shelf' : Shelf) (b b' : BoundedStore) : Prop where
  limits : b.limits = b'.limits
  entries : b.entries.Rel (Held.Twins shelf shelf') b'.entries
  groups : b.groups = b'.groups
  queue : TwinQueues shelf shelf' b.queue b'.queue
  dropped : b.dropped = b'.dropped
  evictions : b.evictions = b'.evictions
  worker : b.worker = b'.worker

namespace BoundedStore.Twins

variable {shelf larger shelf' larger' : Shelf} {b b' : BoundedStore} {s s' : Shared}

theorem grows (h : b.Twins shelf shelf' b') (g : shelf.Grows larger) (g' : shelf'.Grows larger') :
    b.Twins larger larger' b' :=
  { h with
    entries := h.entries.imp fun _ _ twins => ⟨twins.1.grows g g', twins.2⟩
    queue := h.queue.imp fun _ _ same => ⟨same.1, same.2.grows g g'⟩ }

theorem get? (h : b.Twins shelf shelf' b') (now : Instant) (key : CacheKey) :
    Option.Rel (Twin shelf shelf') (b.get? now key) (b'.get? now key) := by
  have found := h.entries.get? key
  unfold BoundedStore.get?
  generalize b.entries.get? key = stored at *
  generalize b'.entries.get? key = stored' at *
  cases found with
  | none => exact .none
  | @some held held' twins =>
    rw [Option.map_some, Option.map_some, Option.filter_some, Option.filter_some, twins.1.details]
    split
    · exact .some twins.1
    · exact .none

/-- The index of groups is checked against the same. -/
theorem members (h : b.Twins shelf shelf' b') (now : Instant) : b.members now = b'.members now := by
  funext group key
  have found := h.get? now key
  unfold BoundedStore.members
  generalize b.get? now key = stored at *
  generalize b'.get? now key = stored' at *
  cases found with
  | none => rfl
  | some twin =>
    rw [Option.filter_some, Option.filter_some, twin.details]
    split
    · exact congrArg (fun d : Details => some d.expiration) twin.details
    · rfl

/-- What is made of the index of groups is made of both. -/
theorem regroup (h : b.Twins shelf shelf' b') (now : Instant)
    (f : GroupIndex → Membership → GroupIndex) :
    { b with groups := f b.groups (b.members now) }.Twins shelf shelf'
      { b' with groups := f b'.groups (b'.members now) } :=
  { h with groups := by rw [h.members, h.groups] }

theorem store (h : b.Twins shelf shelf' b') (twin : Twin shelf shelf' s s') (key : CacheKey) :
    (b.store key s).Twins shelf shelf' (b'.store key s') := by
  have room : b.queue.length < b.limits.writeBuffer ↔ b'.queue.length < b'.limits.writeBuffer := by
    rw [h.queue.length_eq, h.limits]
  unfold BoundedStore.store
  by_cases waits : b.queue.length < b.limits.writeBuffer
  · rw [if_pos waits, if_pos (room.1 waits)]
    exact { h with queue := List.rel_append h.queue (.cons ⟨rfl, twin⟩ .nil) }
  · rw [if_neg waits, if_neg (waits ∘ room.2)]
    exact { h with dropped := congrArg (· + 1) h.dropped }

theorem apply (h : b.Twins shelf shelf' b') (twin : Twin shelf shelf' s s') (now : Instant)
    (key : CacheKey) :
    (b.apply shelf now (key, s)).Twins shelf shelf' (b'.apply shelf' now (key, s')) := by
  have inserted : { b with entries := b.entries.insert key ⟨s, weightOf shelf s⟩ }.Twins shelf shelf'
      { b' with entries := b'.entries.insert key ⟨s', weightOf shelf' s'⟩ } :=
    { h with entries := h.entries.insert key ⟨twin, twin.weightOf⟩ }
  have groups := inserted.regroup now fun index members =>
    index.addAll s.details.groups key s.details.expiration now members
  unfold BoundedStore.apply
  simp only
  rw [← twin.details]
  exact groups

theorem drain (h : b.Twins shelf shelf' b') (now : Instant) :
    (b.drain shelf now).Twins shelf shelf' (b'.drain shelf' now) := by
  have general {queue queue' : List (CacheKey × Shared)} (same : TwinQueues shelf shelf' queue queue')
      {b b' : BoundedStore} (h : b.Twins shelf shelf' b') :
      (queue.foldl (fun b entry => b.apply shelf now entry) b).Twins shelf shelf'
        (queue'.foldl (fun b entry => b.apply shelf' now entry) b') := by
    induction same generalizing b b' with
    | nil => exact h
    | @cons entry entry' queue queue' same _ ih =>
      obtain ⟨key, s⟩ := entry
      obtain ⟨key', s'⟩ := entry'
      obtain ⟨rfl, twin⟩ := same
      exact ih (h.apply twin now key)
  exact general h.queue { h with queue := .nil }

theorem delete (h : b.Twins shelf shelf' b') (key : CacheKey) :
    (b.delete key).Twins shelf shelf' (b'.delete key) :=
  { h with entries := h.entries.erase key }

theorem deleteGroup (h : b.Twins shelf shelf' b') (now : Instant) (name : String) :
    (b.deleteGroup now name).Twins shelf shelf' (b'.deleteGroup now name) := by
  unfold BoundedStore.deleteGroup
  rw [h.members, h.groups]
  exact { h with entries := h.entries.eraseAll _, groups := rfl }

/-- Entries that are alike are kept in both, or given up in both. -/
theorem evict (h : b.Twins shelf shelf' b') {keep keep' : CacheKey → Held → Bool}
    (same : ∀ key held held', Held.Twins shelf shelf' held held' → keep key held = keep' key held') :
    { b with
      entries := b.entries.filter keep
      evictions := b.evictions + (b.entries.size - (b.entries.filter keep).size)
      }.Twins shelf shelf'
      { b' with
        entries := b'.entries.filter keep'
        evictions := b'.evictions + (b'.entries.size - (b'.entries.filter keep').size) } := by
  have kept := h.entries.filter same
  exact { h with
    entries := kept
    evictions := by rw [h.evictions, h.entries.size, kept.size] }

theorem sweep (h : b.Twins shelf shelf' b') (now : Instant) :
    (b.sweep now).Twins shelf shelf' (b'.sweep now) := by
  have settled : b.settle.Twins shelf shelf' b'.settle :=
    h.evict fun _ _ _ twins => by rw [twins.2, h.limits]
  exact settled.regroup now fun index members => index.pruneAll now members

theorem setWorker (h : b.Twins shelf shelf' b') (worker : Worker) :
    { b with worker }.Twins shelf shelf' { b' with worker } :=
  { h with worker := rfl }

theorem wait (h : b.Twins shelf shelf' b') (now : Instant) :
    (b.wait shelf now).Twins shelf shelf' (b'.wait shelf' now) := by
  unfold BoundedStore.wait
  rw [h.worker]
  split
  · exact (h.drain now).setWorker _
  · exact h

theorem runUntil (h : b.Twins shelf shelf' b') (now : Instant) :
    (b.runUntil shelf now).Twins shelf shelf' (b'.runUntil shelf' now) := by
  unfold BoundedStore.runUntil
  rw [h.worker]
  obtain ⟨sweeps, worker⟩ := b'.worker.runUntil now
  have run := h.setWorker worker
  cases sweeps with
  | true => exact (run.drain now).sweep now
  | false => exact run

theorem stop (h : b.Twins shelf shelf' b') (now : Instant) :
    (b.stop shelf now).Twins shelf shelf' (b'.stop shelf' now) := by
  unfold BoundedStore.stop
  rw [h.worker]
  split
  · exact ((h.drain now).sweep now).setWorker _
  · exact h

end BoundedStore.Twins

/-! ### Twin stores -/

/-- All that can be seen of a store. -/
structure Inventory where
  /-- The limits, if the store has any. -/
  limits : Option Limits
  /-- The representations in the table, with their weights if they were weighed. -/
  entries : List (CacheKey × Representation × Option Nat)
  groups : GroupIndex
  /-- The stores that wait. -/
  queue : List (CacheKey × Representation)
  dropped : Nat
  evictions : Nat
  worker : Worker

namespace Leaf

/-- The inventory of a store whose versions stand on a shelf. -/
def inventory (shelf : Shelf) : Leaf → Inventory
  | map m =>
    ⟨none, m.entries.entries.map fun entry => (entry.1, shelf.read entry.2, none), m.groups, [], 0,
      m.evictions, m.worker⟩
  | bounded b =>
    ⟨some b.limits,
      b.entries.entries.map fun entry =>
        (entry.1, shelf.read entry.2.shared, some entry.2.weight),
      b.groups, b.queue.map fun entry => (entry.1, shelf.read entry.2), b.dropped, b.evictions,
      b.worker⟩

/-- All versions of a store, in the table and in the queue, stand on a shelf. -/
def Stands (shelf : Shelf) : Leaf → Prop
  | map m => ∀ entry ∈ m.entries.entries, entry.2.place < shelf.bodies.size
  | bounded b =>
    (∀ entry ∈ b.entries.entries, entry.2.shared.place < shelf.bodies.size) ∧
      ∀ entry ∈ b.queue, entry.2.place < shelf.bodies.size

/-- Two stores are of one kind, and twins. -/
inductive Twins (shelf shelf' : Shelf) : Leaf → Leaf → Prop where
  | map {m m' : MapStore} (h : m.Twins shelf shelf' m') : Twins shelf shelf' (map m) (map m')
  | bounded {b b' : BoundedStore} (h : b.Twins shelf shelf' b') :
    Twins shelf shelf' (bounded b) (bounded b')

namespace Twins

variable {shelf larger shelf' larger' : Shelf} {l l' : Leaf} {s s' : Shared}

/-- A store whose versions stand on a shelf is a twin of itself. -/
theorem refl (h : l.Stands shelf) : l.Twins shelf shelf l := by
  have self {s : Shared} (lt : s.place < shelf.bodies.size) : Twin shelf shelf s s :=
    ⟨shelf.read s, ⟨lt, rfl⟩, ⟨lt, rfl⟩⟩
  cases l with
  | map m =>
    exact .map ⟨List.forall₂_same.2 fun entry mem => ⟨rfl, self (h entry mem)⟩, rfl, rfl, rfl⟩
  | bounded b =>
    exact .bounded ⟨rfl, List.forall₂_same.2 fun entry mem => ⟨rfl, self (h.1 entry mem), rfl⟩, rfl,
      List.forall₂_same.2 fun entry mem => ⟨rfl, self (h.2 entry mem)⟩, rfl, rfl, rfl⟩

/-- **Nothing that can be seen tells twins apart.** -/
theorem inventory (h : l.Twins shelf shelf' l') : l.inventory shelf = l'.inventory shelf' := by
  cases h with
  | @map m m' h =>
    have entries : (m.entries.entries.map fun entry => (entry.1, shelf.read entry.2, none)) =
        m'.entries.entries.map fun entry => (entry.1, shelf'.read entry.2, (none : Option Nat)) :=
      map_eq_of_forall₂ h.entries fun _ _ same => by rw [same.1, same.2.read]
    simp only [Leaf.inventory]
    rw [entries, h.groups, h.evictions, h.worker]
  | @bounded b b' h =>
    have entries : (b.entries.entries.map fun entry =>
          (entry.1, shelf.read entry.2.shared, some entry.2.weight)) =
        b'.entries.entries.map fun entry =>
          (entry.1, shelf'.read entry.2.shared, some entry.2.weight) :=
      map_eq_of_forall₂ h.entries fun _ _ same => by rw [same.1, same.2.1.read, same.2.2]
    have queue : (b.queue.map fun entry => (entry.1, shelf.read entry.2)) =
        b'.queue.map fun entry => (entry.1, shelf'.read entry.2) :=
      map_eq_of_forall₂ h.queue fun _ _ same => by rw [same.1, same.2.read]
    simp only [Leaf.inventory]
    rw [entries, queue, h.limits, h.groups, h.dropped, h.evictions, h.worker]

theorem grows (h : l.Twins shelf shelf' l') (g : shelf.Grows larger) (g' : shelf'.Grows larger') :
    l.Twins larger larger' l' := by
  cases h with
  | map h => exact .map (h.grows g g')
  | bounded h => exact .bounded (h.grows g g')

theorem load (h : l.Twins shelf shelf' l') (now : Instant) (key : CacheKey) :
    Option.Rel (Twin shelf shelf') (l.load now key).1 (l'.load now key).1 ∧
      (l.load now key).2.Twins shelf shelf' (l'.load now key).2 := by
  cases h with
  | map h => exact ⟨(h.load now key).1, .map (h.load now key).2⟩
  | bounded h => exact ⟨h.get? now key, .bounded h⟩

/-- Neither has the key, or both have it. -/
theorem load_eq_none_iff (h : l.Twins shelf shelf' l') (now : Instant) (key : CacheKey) :
    (l.load now key).1 = none ↔ (l'.load now key).1 = none := by
  have found := (h.load now key).1
  generalize (l.load now key).1 = hit at *
  generalize (l'.load now key).1 = hit' at *
  cases found with
  | none => exact Iff.rfl
  | some _ => simp only [reduceCtorEq]

theorem store (h : l.Twins shelf shelf' l') (twin : Twin shelf shelf' s s') (now : Instant)
    (key : CacheKey) : (l.store now key s).Twins shelf shelf' (l'.store now key s') := by
  cases h with
  | map h => exact .map (h.store twin now key)
  | bounded h => exact .bounded (h.store twin key)

theorem delete (h : l.Twins shelf shelf' l') (key : CacheKey) :
    (l.delete key).Twins shelf shelf' (l'.delete key) := by
  cases h with
  | map h => exact .map (h.delete key)
  | bounded h => exact .bounded (h.delete key)

theorem deleteGroup (h : l.Twins shelf shelf' l') (now : Instant) (name : String) :
    (l.deleteGroup now name).Twins shelf shelf' (l'.deleteGroup now name) := by
  cases h with
  | map h => exact .map (h.deleteGroup now name)
  | bounded h => exact .bounded (h.deleteGroup now name)

theorem look (h : l.Twins shelf shelf' l') (now : Instant) (name : String) :
    (l.look now name).Twins shelf shelf' (l'.look now name) := by
  cases h with
  | map h => exact .map (h.group now name)
  | bounded h => exact .bounded h

theorem sweep (h : l.Twins shelf shelf' l') (now : Instant) :
    (l.sweep now).Twins shelf shelf' (l'.sweep now) := by
  cases h with
  | map h => exact .map (h.sweep now)
  | bounded h => exact .bounded (h.sweep now)

/-- Entries that are alike are kept in both, or given up in both. -/
theorem evict (h : l.Twins shelf shelf' l') {keep keep' : CacheKey → Held → Bool}
    (same : ∀ key held held', Held.Twins shelf shelf' held held' → keep key held = keep' key held') :
    (l.evict keep).Twins shelf shelf' (l'.evict keep') := by
  cases h with
  | map h => exact .map h
  | bounded h => exact .bounded (h.evict same)

theorem worker (h : l.Twins shelf shelf' l') : l.worker = l'.worker := by
  cases h with
  | map h => exact h.worker
  | bounded h => exact h.worker

theorem workerName (h : l.Twins shelf shelf' l') : l.workerName = l'.workerName := by
  cases h <;> rfl

theorem setWorker (h : l.Twins shelf shelf' l') (worker : Worker) :
    (l.setWorker worker).Twins shelf shelf' (l'.setWorker worker) := by
  cases h with
  | map h => exact .map (h.setWorker worker)
  | bounded h => exact .bounded (h.setWorker worker)

/-- The workers of both start, or refuse to for one reason. -/
theorem startWorker (h : l.Twins shelf shelf' l') :
    l.startWorker.1 = l'.startWorker.1 ∧ l.startWorker.2.Twins shelf shelf' l'.startWorker.2 := by
  unfold Leaf.startWorker
  rw [h.worker, h.workerName]
  split
  · exact ⟨rfl, h⟩
  · split
    · exact ⟨rfl, h⟩
    · exact ⟨rfl, h.setWorker _⟩

theorem stopWorker (h : l.Twins shelf shelf' l') (now : Instant) :
    (l.stopWorker shelf now).Twins shelf shelf' (l'.stopWorker shelf' now) := by
  cases h with
  | @map m m' h =>
    unfold Leaf.stopWorker
    simp only
    rw [h.worker]
    exact .map (h.setWorker _)
  | bounded h => exact .bounded (h.stop now)

theorem wait (h : l.Twins shelf shelf' l') (now : Instant) :
    (l.wait shelf now).Twins shelf shelf' (l'.wait shelf' now) := by
  cases h with
  | @map m m' h =>
    unfold Leaf.wait
    simp only
    rw [h.worker]
    exact .map (h.setWorker _)
  | bounded h => exact .bounded (h.wait now)

theorem runUntil (h : l.Twins shelf shelf' l') (now : Instant) :
    (l.runUntil shelf now).Twins shelf shelf' (l'.runUntil shelf' now) := by
  cases h with
  | map h => exact .map (h.runUntil now)
  | bounded h => exact .bounded (h.runUntil now)

end Twins

end Leaf
end Store
end VariantCache
