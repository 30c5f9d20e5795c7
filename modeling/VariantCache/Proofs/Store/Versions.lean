import VariantCache.Proofs.Store.GroupIndex
import VariantCache.Store.Leaf

/-!
# The versions that a store holds

A store holds a version of a representation under a key when a load would give it, or
when it waits in the queue. A store brings in its own version only (`Holds.of_store`).
Everything else that happens to a store is upkeep (`Upkeep`): loads, deletions, and the
chores that a store does for itself (`Chore`). Upkeep only loses versions
(`Holds.of_upkeep`), and so does the passing of time (`Holds.of_le`).
-/

namespace VariantCache.Store

/-! ### What a load finds -/

namespace MapStore

theorem load_eq_some_iff {m : MapStore} {now : Instant} {key : CacheKey} {s : Shared} :
    (m.load now key).1 = some s ↔ m.entries.get? key = some s ∧ now ≤ s.details.expiration := by
  unfold load Details.expiredAt
  cases h : m.entries.get? key with
  | none => simp
  | some t =>
    by_cases he : t.details.expiration < now
    · simp only [he, decide_true, if_true]
      constructor
      · intro h
        cases h
      · rintro ⟨hs, hf⟩
        obtain rfl := Option.some.inj hs
        exact absurd he (Instant.not_lt.2 hf)
    · simp only [he, decide_false, Bool.false_eq_true, if_false]
      constructor
      · intro hs
        obtain rfl := Option.some.inj hs
        exact ⟨rfl, Instant.not_lt.1 he⟩
      · exact fun h => h.1

theorem load_congr {m n : MapStore} {now : Instant} {key : CacheKey}
    (h : n.entries.get? key = m.entries.get? key) : (n.load now key).1 = (m.load now key).1 :=
  Option.ext fun s => by rw [load_eq_some_iff, load_eq_some_iff, h]

/-- The members of a group are what loads find in it. -/
theorem isMember_iff {m : MapStore} {now : Instant} {name : String} {key : CacheKey} :
    IsMember m.members now name key ↔
      ∃ s, (m.load now key).1 = some s ∧ s.details.inGroup name = true := by
  simp only [IsMember, members, Option.map_eq_some_iff, Option.filter_eq_some_iff, load_eq_some_iff]
  constructor
  · rintro ⟨_, ⟨s, ⟨hs, hg⟩, rfl⟩, hf⟩
    exact ⟨s, ⟨hs, hf⟩, hg⟩
  · rintro ⟨s, ⟨hs, hf⟩, hg⟩
    exact ⟨_, ⟨s, ⟨hs, hg⟩, rfl⟩, hf⟩

end MapStore

namespace BoundedStore

theorem get?_eq_some_iff {b : BoundedStore} {now : Instant} {key : CacheKey} {s : Shared} :
    b.get? now key = some s ↔
      (b.entries.get? key).map (·.shared) = some s ∧ now < s.details.expiration := by
  rw [get?, Option.filter_eq_some_iff, decide_eq_true_iff]

theorem get?_congr {b c : BoundedStore} {now : Instant} {key : CacheKey}
    (h : (c.entries.get? key).map (·.shared) = (b.entries.get? key).map (·.shared)) :
    c.get? now key = b.get? now key := by
  rw [get?, get?, h]

/-- The members of a group are what loads find in it. -/
theorem isMember_iff {b : BoundedStore} {now : Instant} {name : String} {key : CacheKey} :
    IsMember (b.members now) now name key ↔
      ∃ s, b.get? now key = some s ∧ s.details.inGroup name = true := by
  simp only [IsMember, members, Option.map_eq_some_iff, Option.filter_eq_some_iff]
  constructor
  · rintro ⟨_, ⟨s, hs, rfl⟩, -⟩
    exact ⟨s, hs⟩
  · rintro ⟨s, hs, hg⟩
    exact ⟨_, ⟨s, ⟨hs, hg⟩, rfl⟩, Instant.le_of_lt (get?_eq_some_iff.1 hs).2⟩

end BoundedStore

/-! ### The parts of a store -/

namespace Leaf

/-- The version that the table of a store has of a key, fresh or not. -/
def stored? (key : CacheKey) : Leaf → Option Shared
  | map m => m.entries.get? key
  | bounded b => (b.entries.get? key).map (·.shared)

/-- The stores that wait. -/
def queued : Leaf → List (CacheKey × Shared)
  | map _ => []
  | bounded b => b.queue

/-- The index of groups. -/
def groups : Leaf → GroupIndex
  | map m => m.groups
  | bounded b => b.groups

/-- Sweeps a store. -/
def sweep (now : Instant) : Leaf → Leaf
  | map m => map (m.sweep now).2
  | bounded b => bounded (b.sweep now)

/-- A bounded store gives up entries for want of room. -/
def evict (keep : CacheKey → Held → Bool) : Leaf → Leaf
  | map m => map m
  | bounded b =>
    let entries := b.entries.filter keep
    bounded { b with entries, evictions := b.evictions + (b.entries.size - entries.size) }

/-- Looks at a group, which prunes it. -/
def look (now : Instant) (name : String) : Leaf → Leaf
  | map m => map (m.group now name).2
  | bounded b => bounded b

/-- Applies the stores that wait. -/
def drain (shelf : Shelf) (now : Instant) : Leaf → Leaf
  | map m => map m
  | bounded b => bounded (b.drain shelf now)

/-- Nothing was put into the store yet. -/
def IsNew : Leaf → Prop
  | map m => ∃ period, m = .empty period
  | bounded b => ∃ limits period, b = .empty limits period

/-- What the index of groups is checked against. -/
def members (now : Instant) : Leaf → Membership
  | map m => m.members
  | bounded b => b.members now

theorem isMember_iff {now : Instant} {name : String} {key : CacheKey} {l : Leaf} :
    IsMember (l.members now) now name key ↔
      ∃ s, (l.load now key).1 = some s ∧ s.details.inGroup name = true := by
  cases l with
  | map m => exact MapStore.isMember_iff
  | bounded b => exact BoundedStore.isMember_iff

/-- What a load gives was stored. -/
theorem stored?_of_load {now : Instant} {key : CacheKey} {s : Shared} {l : Leaf}
    (h : (l.load now key).1 = some s) : l.stored? key = some s := by
  cases l with
  | map m => exact (MapStore.load_eq_some_iff.1 h).1
  | bounded b => exact (BoundedStore.get?_eq_some_iff.1 h).1

/-- What a load gives has not expired. -/
theorem le_expiration_of_load {now : Instant} {key : CacheKey} {s : Shared} {l : Leaf}
    (h : (l.load now key).1 = some s) : now ≤ s.details.expiration := by
  cases l with
  | map m => exact (MapStore.load_eq_some_iff.1 h).2
  | bounded b => exact Instant.le_of_lt (BoundedStore.get?_eq_some_iff.1 h).2

/-- What a load gives at some date, it would have given before. -/
theorem load_of_le {now later : Instant} (le : now ≤ later) {key : CacheKey} {s : Shared} {l : Leaf}
    (h : (l.load later key).1 = some s) : (l.load now key).1 = some s := by
  cases l with
  | map m =>
    obtain ⟨hs, hf⟩ := MapStore.load_eq_some_iff.1 h
    exact MapStore.load_eq_some_iff.2 ⟨hs, Instant.le_trans le hf⟩
  | bounded b =>
    obtain ⟨hs, hf⟩ := BoundedStore.get?_eq_some_iff.1 h
    exact BoundedStore.get?_eq_some_iff.2 ⟨hs, Instant.lt_of_le_of_lt le hf⟩

end Leaf

/-! ### What each operation does to the entries -/

namespace MapStore

theorem get?_of_load {m : MapStore} {now : Instant} {key k : CacheKey} {s : Shared}
    (h : (m.load now key).2.entries.get? k = some s) : m.entries.get? k = some s := by
  unfold load at h
  split at h
  · exact h
  · split at h
    · exact Table.get?_of_erase h
    · exact h

theorem get?_store (m : MapStore) (now : Instant) (key k : CacheKey) (s : Shared) :
    (m.store now key s).entries.get? k = if k = key then some s else m.entries.get? k :=
  Table.get?_insert _ _ _ _

theorem get?_sweep (m : MapStore) (now : Instant) (k : CacheKey) :
    (m.sweep now).2.entries.get? k = (m.entries.get? k).filter fun s => !s.details.expiredAt now :=
  Table.get?_filter _ _ _

theorem get?_deleteGroup (m : MapStore) (now : Instant) (name : String) (k : CacheKey) :
    (m.deleteGroup now name).entries.get? k =
      if k ∈ (m.groups.take name now m.members).1 then none else m.entries.get? k :=
  Table.get?_eraseAll _ _ _

end MapStore

namespace BoundedStore

theorem entries_store (b : BoundedStore) (key : CacheKey) (s : Shared) :
    (b.store key s).entries = b.entries := by
  unfold store
  split <;> rfl

theorem groups_store (b : BoundedStore) (key : CacheKey) (s : Shared) :
    (b.store key s).groups = b.groups := by
  unfold store
  split <;> rfl

theorem of_mem_queue_store {b : BoundedStore} {key : CacheKey} {s : Shared}
    {entry : CacheKey × Shared} (h : entry ∈ (b.store key s).queue) :
    entry ∈ b.queue ∨ entry = (key, s) := by
  unfold store at h
  split at h
  · simpa using h
  · exact .inl h

theorem get?_apply (b : BoundedStore) (shelf : Shelf) (now : Instant) (entry : CacheKey × Shared)
    (k : CacheKey) :
    ((b.apply shelf now entry).entries.get? k).map (·.shared) =
      if k = entry.1 then some entry.2 else (b.entries.get? k).map (·.shared) := by
  obtain ⟨key, s⟩ := entry
  unfold apply
  simp only [Table.get?_insert]
  split <;> rfl

/-- An entry was there before the queue was applied, or comes from the queue. -/
theorem get?_of_drain {b : BoundedStore} {shelf : Shelf} {now : Instant} {k : CacheKey} {s : Shared}
    (h : ((b.drain shelf now).entries.get? k).map (·.shared) = some s) :
    (b.entries.get? k).map (·.shared) = some s ∨ (k, s) ∈ b.queue := by
  have general : ∀ (queue : List (CacheKey × Shared)) (b : BoundedStore),
      ((queue.foldl (fun b entry => b.apply shelf now entry) b).entries.get? k).map (·.shared) =
        some s →
        (b.entries.get? k).map (·.shared) = some s ∨ (k, s) ∈ queue := by
    intro queue
    induction queue with
    | nil => exact fun b h => .inl h
    | cons entry queue ih =>
      intro b h
      rcases ih _ h with h | h
      · rw [get?_apply] at h
        split at h
        · next he =>
          obtain rfl := Option.some.inj h
          exact .inr (by rw [he]; exact List.mem_cons_self)
        · exact .inl h
      · exact .inr (List.mem_cons_of_mem _ h)
  exact general b.queue { b with queue := [] } h

theorem queue_drain (b : BoundedStore) (shelf : Shelf) (now : Instant) :
    (b.drain shelf now).queue = [] := by
  have general : ∀ (queue : List (CacheKey × Shared)) (b : BoundedStore),
      (queue.foldl (fun b entry => b.apply shelf now entry) b).queue = b.queue := by
    intro queue
    induction queue with
    | nil => exact fun _ => rfl
    | cons entry queue ih => exact fun b => ih _
  exact general b.queue _

theorem get?_deleteGroup (b : BoundedStore) (now : Instant) (name : String) (k : CacheKey) :
    (b.deleteGroup now name).entries.get? k =
      if k ∈ (b.groups.take name now (b.members now)).1 then none else b.entries.get? k :=
  Table.get?_eraseAll _ _ _

end BoundedStore

/-! ### Fewer versions -/

namespace Leaf

variable {now : Instant} {k key : CacheKey} {s t : Shared} {shelf : Shelf} {l : Leaf}

/-- What a load of the first store gives, a load of the second gives too. -/
def Fewer (fewer l : Leaf) : Prop :=
  ∀ now k t, (fewer.load now k).1 = some t → (l.load now k).1 = some t

theorem fewer_map {m fewer : MapStore}
    (h : ∀ k t, fewer.entries.get? k = some t → m.entries.get? k = some t) :
    (map fewer).Fewer (map m) := by
  intro now k t ht
  obtain ⟨hs, hf⟩ := MapStore.load_eq_some_iff.1 ht
  exact MapStore.load_eq_some_iff.2 ⟨h k t hs, hf⟩

theorem fewer_bounded {b fewer : BoundedStore}
    (h : ∀ k held, fewer.entries.get? k = some held → b.entries.get? k = some held) :
    (bounded fewer).Fewer (bounded b) := by
  intro now k t ht
  obtain ⟨hs, hf⟩ := BoundedStore.get?_eq_some_iff.1 ht
  obtain ⟨held, hh, rfl⟩ := Option.map_eq_some_iff.1 hs
  exact BoundedStore.get?_eq_some_iff.2 ⟨by rw [h k held hh, Option.map_some], hf⟩

theorem fewer_load (now : Instant) (key : CacheKey) (l : Leaf) : (l.load now key).2.Fewer l := by
  cases l with
  | map m => exact fewer_map fun k t h => MapStore.get?_of_load h
  | bounded b => exact fewer_bounded fun k held h => h

theorem fewer_delete (key : CacheKey) (l : Leaf) : (l.delete key).Fewer l := by
  cases l with
  | map m => exact fewer_map fun k t h => Table.get?_of_erase h
  | bounded b => exact fewer_bounded fun k held h => Table.get?_of_erase h

theorem fewer_deleteGroup (now : Instant) (name : String) (l : Leaf) :
    (l.deleteGroup now name).Fewer l := by
  cases l with
  | map m => exact fewer_map fun k t h => Table.get?_of_eraseAll h
  | bounded b => exact fewer_bounded fun k held h => Table.get?_of_eraseAll h

theorem fewer_sweep (now : Instant) (l : Leaf) : (l.sweep now).Fewer l := by
  cases l with
  | map m => exact fewer_map fun k t h => Table.get?_of_filter h
  | bounded b => exact fewer_bounded fun k held h => Table.get?_of_filter h

theorem fewer_evict (keep : CacheKey → Held → Bool) (l : Leaf) : (l.evict keep).Fewer l := by
  cases l with
  | map m => exact fewer_map fun k t h => h
  | bounded b => exact fewer_bounded fun k held h => Table.get?_of_filter h

theorem fewer_look (now : Instant) (name : String) (l : Leaf) : (l.look now name).Fewer l := by
  cases l with
  | map m => exact fewer_map fun k t h => h
  | bounded b => exact fewer_bounded fun k held h => h

theorem fewer_setWorker (worker : Worker) (l : Leaf) : (l.setWorker worker).Fewer l := by
  cases l with
  | map m => exact fewer_map fun k t h => h
  | bounded b => exact fewer_bounded fun k held h => h

/-! ### What waits -/

@[simp] theorem queued_load (now : Instant) (key : CacheKey) (l : Leaf) :
    (l.load now key).2.queued = l.queued := by
  cases l <;> rfl

@[simp] theorem queued_delete (key : CacheKey) (l : Leaf) : (l.delete key).queued = l.queued := by
  cases l <;> rfl

@[simp] theorem queued_deleteGroup (now : Instant) (name : String) (l : Leaf) :
    (l.deleteGroup now name).queued = l.queued := by
  cases l <;> rfl

@[simp] theorem queued_sweep (now : Instant) (l : Leaf) : (l.sweep now).queued = l.queued := by
  cases l <;> rfl

@[simp] theorem queued_evict (keep : CacheKey → Held → Bool) (l : Leaf) :
    (l.evict keep).queued = l.queued := by
  cases l <;> rfl

@[simp] theorem queued_look (now : Instant) (name : String) (l : Leaf) :
    (l.look now name).queued = l.queued := by
  cases l <;> rfl

@[simp] theorem queued_setWorker (worker : Worker) (l : Leaf) :
    (l.setWorker worker).queued = l.queued := by
  cases l <;> rfl

@[simp] theorem queued_drain (shelf : Shelf) (now : Instant) (l : Leaf) :
    (l.drain shelf now).queued = [] := by
  cases l with
  | map m => rfl
  | bounded b => exact BoundedStore.queue_drain b shelf now

/-! ### The versions that are held -/

/-- A version is held under a key: a load would give it, or it waits in the queue. -/
def Holds (now : Instant) (key : CacheKey) (s : Shared) (l : Leaf) : Prop :=
  (l.load now key).1 = some s ∨ (key, s) ∈ l.queued

/-- Time brings nothing in. -/
theorem Holds.of_le {later : Instant} (le : now ≤ later) (h : l.Holds later k t) :
    l.Holds now k t :=
  h.imp_left (load_of_le le)

/-- What leaves the queue alone, and brings nothing into the entries, brings nothing in. -/
theorem Holds.of_fewer {fewer : Leaf} (holds : fewer.Holds now k t) (h : fewer.Fewer l)
    (same : fewer.queued = l.queued) : l.Holds now k t :=
  holds.imp (h now k t) (same ▸ ·)

/-- A store brings in its own version only, whenever one looks. -/
theorem Holds.of_store {date : Instant} (h : (l.store now key s).Holds date k t) :
    l.Holds date k t ∨ k = key ∧ t = s := by
  cases l with
  | map m =>
    rcases h with h | h
    · obtain ⟨hm, hf⟩ := MapStore.load_eq_some_iff.1 h
      rw [MapStore.get?_store] at hm
      split at hm
      · next hk => exact .inr ⟨hk, (Option.some.inj hm).symm⟩
      · exact .inl (.inl (MapStore.load_eq_some_iff.2 ⟨hm, hf⟩))
    · cases h
  | bounded b =>
    rcases h with h | h
    · obtain ⟨hm, hf⟩ := BoundedStore.get?_eq_some_iff.1 h
      rw [BoundedStore.entries_store] at hm
      exact .inl (.inl (BoundedStore.get?_eq_some_iff.2 ⟨hm, hf⟩))
    · rcases BoundedStore.of_mem_queue_store h with h | h
      · exact .inl (.inr h)
      · obtain ⟨rfl, rfl⟩ := Prod.mk.inj h
        exact .inr ⟨rfl, rfl⟩

/-- Applying the queue brings in what waited. -/
theorem Holds.of_drain {date : Instant} (h : (l.drain shelf now).Holds date k t) :
    l.Holds date k t := by
  cases l with
  | map m => exact h
  | bounded b =>
    rcases h with h | h
    · obtain ⟨hm, hf⟩ := BoundedStore.get?_eq_some_iff.1 h
      rcases BoundedStore.get?_of_drain hm with hm | hq
      · exact .inl (BoundedStore.get?_eq_some_iff.2 ⟨hm, hf⟩)
      · exact .inr hq
    · rw [queued_drain] at h
      cases h

/-! ### Upkeep -/

/-- The second store comes from the first by what it does for itself: sweeps, looks at groups, room
that is made for other entries, and the work of the writer. -/
inductive Chore (shelf : Shelf) (now : Instant) : Leaf → Leaf → Prop where
  | refl (l : Leaf) : Chore shelf now l l
  | trans {a b c : Leaf} (first : Chore shelf now a b) (second : Chore shelf now b c) :
      Chore shelf now a c
  | look (name : String) (l : Leaf) : Chore shelf now l (l.look now name)
  | sweep (l : Leaf) : Chore shelf now l (l.sweep now)
  | evict (keep : CacheKey → Held → Bool) (l : Leaf) : Chore shelf now l (l.evict keep)
  | drain (l : Leaf) : Chore shelf now l (l.drain shelf now)
  | setWorker (worker : Worker) (l : Leaf) : Chore shelf now l (l.setWorker worker)

/-- The second store comes from the first by anything but a store. -/
inductive Upkeep (shelf : Shelf) (now : Instant) : Leaf → Leaf → Prop where
  | chore {l done : Leaf} (chore : Chore shelf now l done) : Upkeep shelf now l done
  | load (key : CacheKey) (l : Leaf) : Upkeep shelf now l (l.load now key).2
  | delete (key : CacheKey) (l : Leaf) : Upkeep shelf now l (l.delete key)
  | deleteGroup (name : String) (l : Leaf) : Upkeep shelf now l (l.deleteGroup now name)

theorem chore_startWorker (shelf : Shelf) (now : Instant) (l : Leaf) :
    Chore shelf now l l.startWorker.2 := by
  unfold startWorker
  split
  · exact .refl l
  · split
    · exact .refl l
    · exact .setWorker _ l

theorem chore_stopWorker (shelf : Shelf) (now : Instant) (l : Leaf) :
    Chore shelf now l (l.stopWorker shelf now) := by
  cases l with
  | map m => exact .setWorker m.worker.stop (map m)
  | bounded b =>
    show Chore shelf now (bounded b) (bounded (b.stop shelf now))
    unfold BoundedStore.stop
    split
    · exact .trans (.drain (bounded b)) (.trans (.sweep _) (.setWorker b.worker.stop _))
    · exact .refl _

theorem chore_wait (shelf : Shelf) (now : Instant) (l : Leaf) :
    Chore shelf now l (l.wait shelf now) := by
  cases l with
  | map m => exact .setWorker (m.worker.wake now) (map m)
  | bounded b =>
    show Chore shelf now (bounded b) (bounded (b.wait shelf now))
    unfold BoundedStore.wait
    split
    · exact .trans (.drain (bounded b)) (.setWorker (b.worker.wake now) _)
    · exact .refl _

theorem chore_runUntil (shelf : Shelf) (now : Instant) (l : Leaf) :
    Chore shelf now l (l.runUntil shelf now) := by
  cases l with
  | map m =>
    have wake := (Chore.setWorker (m.worker.runUntil now).2 (map m) : Chore shelf now _ _)
    show Chore shelf now (map m) (map (m.runUntil now))
    unfold MapStore.runUntil
    simp only
    split
    · exact wake.trans (.sweep _)
    · exact wake
  | bounded b =>
    have wake := (Chore.setWorker (b.worker.runUntil now).2 (bounded b) : Chore shelf now _ _)
    show Chore shelf now (bounded b) (bounded (b.runUntil shelf now))
    unfold BoundedStore.runUntil
    simp only
    split
    · exact wake.trans (.trans (.drain _) (.sweep _))
    · exact wake

theorem Holds.of_chore {done : Leaf} {date : Instant} (h : Chore shelf now l done)
    (holds : done.Holds date k t) : l.Holds date k t := by
  induction h with
  | refl => exact holds
  | trans _ _ first second => exact first (second holds)
  | look name l => exact holds.of_fewer (fewer_look now name l) (queued_look now name l)
  | sweep l => exact holds.of_fewer (fewer_sweep now l) (queued_sweep now l)
  | evict keep l => exact holds.of_fewer (fewer_evict keep l) (queued_evict keep l)
  | drain => exact holds.of_drain
  | setWorker worker l =>
    exact holds.of_fewer (fewer_setWorker worker l) (queued_setWorker worker l)

/-- **Upkeep brings nothing in.** -/
theorem Holds.of_upkeep {kept : Leaf} {date : Instant} (h : Upkeep shelf now l kept)
    (holds : kept.Holds date k t) : l.Holds date k t := by
  cases h with
  | chore h => exact holds.of_chore h
  | load key => exact holds.of_fewer (fewer_load now key l) (queued_load now key l)
  | delete key => exact holds.of_fewer (fewer_delete key l) (queued_delete key l)
  | deleteGroup name =>
    exact holds.of_fewer (fewer_deleteGroup now name l) (queued_deleteGroup now name l)

end Leaf
end VariantCache.Store
