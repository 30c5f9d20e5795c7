import VariantCache.Proofs.Backend.SingleStore
import VariantCache.Proofs.Backend.WriteQueue
import VariantCache.Proofs.Store.Bounded
import VariantCache.Proofs.Store.Map

/-!
# A bounded store whose queue is drained behaves as a map store

A bounded store applies stores late, drops what it has no room for, and finds nothing at the
last date at which a representation is fresh. When none of this can show, because the
writer is waited for after every store, the entries fit, and nobody asks at that very date,
it answers as a map store that is used in the same way. The two stores then have the same
of every key, except what expires now (`Agrees`).
-/

namespace VariantCache

open Store

namespace Store

/-- What the bounded store finds is what the map store finds and does not expire now. Nothing waits,
and both indexes list what there is. -/
structure Agrees (now : Instant) (b : BoundedStore) (m : MapStore) : Prop where
  drained : b.queue = []
  room : 0 < b.limits.writeBuffer
  found : ∀ k t, b.get? now k = some t ↔ (m.load now k).1 = some t ∧ now < t.details.expiration
  bounded : (Leaf.bounded b).Indexed now
  map : (Leaf.map m).Indexed now

namespace Agrees

variable {now : Instant} {shelf : Shelf} {b : BoundedStore} {m : MapStore} {key k : CacheKey}
  {s : Shared}

theorem of_empty {limits : Limits} (room : 0 < limits.writeBuffer) (now : Instant)
    (period period' : Duration) : Agrees now (.empty limits period) (.empty period') where
  drained := rfl
  room := room
  found _ _ := iff_of_false (fun none => nomatch none) fun h => nomatch h.1
  bounded := Leaf.IsNew.indexed (l := .bounded _) ⟨_, _, rfl⟩ now
  map := Leaf.IsNew.indexed (l := .map _) ⟨_, rfl⟩ now

theorem load (h : Agrees now b m) (key : CacheKey) : Agrees now b (m.load now key).2 :=
  { h with
    found := fun k t => by rw [h.found, m.load_load]
    map := h.map.load }

/-- A store that is applied at once. -/
theorem apply (h : Agrees now b m) (key : CacheKey) (s : Shared) (shelf : Shelf) :
    Agrees now (b.apply shelf now (key, s)) (m.store now key s) := by
  have found : ∀ k t, (b.apply shelf now (key, s)).get? now k = some t ↔
      ((m.store now key s).load now k).1 = some t ∧ now < t.details.expiration := by
    intro k t
    rw [b.found_apply, m.load_store]
    by_cases same : k = key
    · -- What was stored is found by the bounded store unless it expires now already.
      rw [if_pos same, if_pos same, Option.filter_eq_some_iff, Option.filter_eq_some_iff,
        decide_eq_true_iff, decide_eq_true_iff]
      constructor
      · rintro ⟨stored, fresh⟩
        exact ⟨⟨stored, Instant.le_of_lt fresh⟩, fresh⟩
      · rintro ⟨⟨stored, -⟩, fresh⟩
        exact ⟨stored, fresh⟩
    · rw [if_neg same, if_neg same]
      exact h.found k t
  exact { h with found, bounded := Leaf.indexed_apply h.bounded (key, s), map := h.map.store }

theorem delete (h : Agrees now b m) (key : CacheKey) :
    Agrees now (b.delete key) (m.delete key) := by
  have found : ∀ k t, (b.delete key).get? now k = some t ↔
      ((m.delete key).load now k).1 = some t ∧ now < t.details.expiration := by
    intro k t
    rw [b.found_delete, m.load_delete]
    by_cases same : k = key
    · simp [same]
    · rw [if_neg same, if_neg same]
      exact h.found k t
  exact { h with found, bounded := h.bounded.delete, map := h.map.delete }

theorem deleteGroup (h : Agrees now b m) (name : String) :
    Agrees now (b.deleteGroup now name) (m.deleteGroup now name) := by
  have found : ∀ k t, (b.deleteGroup now name).get? now k = some t ↔
      ((m.deleteGroup now name).load now k).1 = some t ∧ now < t.details.expiration := by
    intro k t
    have kept : (b.deleteGroup now name).get? now k = _ := h.bounded.load_deleteGroup
    rw [kept, m.load_deleteGroup now k h.map, Option.filter_eq_some_iff, Option.filter_eq_some_iff]
    show b.get? now k = some t ∧ _ ↔ _
    rw [h.found, and_right_comm]
  exact { h with found, bounded := h.bounded.deleteGroup, map := h.map.deleteGroup }

theorem later {later : Instant} (h : Agrees now b m) (le : now ≤ later) : Agrees later b m := by
  have found : ∀ k t, b.get? later k = some t ↔
      (m.load later k).1 = some t ∧ later < t.details.expiration := by
    intro k t
    rw [BoundedStore.found_later le, m.load_later now k le, Option.filter_eq_some_iff,
      Option.filter_eq_some_iff, h.found, decide_eq_true_iff, decide_eq_true_iff]
    constructor
    · rintro ⟨⟨load, -⟩, fresh⟩
      exact ⟨⟨load, Instant.le_of_lt fresh⟩, fresh⟩
    · rintro ⟨⟨load, -⟩, fresh⟩
      exact ⟨⟨load, Instant.lt_of_le_of_lt le fresh⟩, fresh⟩
  exact { h with found, bounded := h.bounded.at_later le, map := h.map.at_later le }

/-- Whatever the map store does for itself. -/
theorem chore_right (h : Agrees now b m) {n : MapStore}
    (chore : Leaf.Chore shelf now (.map m) (.map n)) : Agrees now b n := by
  obtain ⟨n', same, loads⟩ := chore.of_map rfl
  obtain rfl := Leaf.map.inj same
  exact { h with
    found := fun k t => by rw [h.found, loads]
    map := h.map.chore chore }

theorem setWorker_left (h : Agrees now b m) (worker : Worker) : Agrees now { b with worker } m :=
  { h with bounded := Leaf.Indexed.setWorker h.bounded }

/-- A sweep of the bounded store, while its entries fit. -/
theorem sweep_left (h : Agrees now b m) (fits : (Leaf.bounded b).Fits now) :
    Agrees now (b.sweep now) m :=
  { h with
    found := fun k t => by rw [BoundedStore.get?_sweep fits, h.found]
    bounded := h.bounded.sweep }

/-- Whatever the bounded store does for itself, except giving up entries. -/
theorem chore_left (shelf : Shelf) (h : Agrees now b m) (fits : (Leaf.bounded b).Fits now)
    (c : Chore) (keeps : ∀ keep, c ≠ .evict keep) :
    ∃ d, (Leaf.bounded b).perform now shelf (.chore c) = .bounded d ∧ Agrees now d m := by
  -- An active writer finds nothing to apply.
  have drained := BoundedStore.drain_of_queue_eq_nil h.drained shelf now
  cases c with
  | look name => exact ⟨b, rfl, h⟩
  | sweep => exact ⟨_, rfl, h.sweep_left fits⟩
  | evict keep => exact absurd rfl (keeps keep)
  | start =>
    show ∃ d, (Leaf.bounded b).startWorker.2 = .bounded d ∧ _
    unfold Leaf.startWorker
    split
    · exact ⟨b, rfl, h⟩
    · split
      · exact ⟨b, rfl, h⟩
      · exact ⟨_, rfl, h.setWorker_left _⟩
  | stop =>
    refine ⟨_, rfl, ?_⟩
    unfold BoundedStore.stop
    split
    · rw [drained]
      exact (h.sweep_left fits).setWorker_left _
    · exact h
  | wait =>
    refine ⟨_, rfl, ?_⟩
    unfold BoundedStore.wait
    split
    · rw [drained]
      exact h.setWorker_left _
    · exact h
  | run =>
    have running := h.setWorker_left (b.worker.runUntil now).2
    refine ⟨_, rfl, ?_⟩
    unfold BoundedStore.runUntil
    simp only
    split
    · rw [BoundedStore.drain_of_queue_eq_nil running.drained]
      exact running.sweep_left fits
    · exact running

/-- The same operation on both stores, except a store. -/
theorem perform (shelf : Shelf) (h : Agrees now b m) (fits : (Leaf.bounded b).Fits now)
    {op : Operation} (stores : op.isStore = false) (keeps : ∀ keep, op ≠ .chore (.evict keep)) :
    ∃ c n, (Leaf.bounded b).perform now shelf op = .bounded c ∧
      (Leaf.map m).perform now shelf op = .map n ∧ Agrees now c n := by
  cases op with
  | store key s => cases stores
  | load key => exact ⟨b, _, rfl, rfl, h.load key⟩
  | delete key => exact ⟨_, _, rfl, rfl, h.delete key⟩
  | deleteGroup name => exact ⟨_, _, rfl, rfl, h.deleteGroup name⟩
  | chore c =>
    obtain ⟨d, left, agrees⟩ := h.chore_left shelf fits c fun keep same => keeps keep (same ▸ rfl)
    have chore := Leaf.chore_perform now shelf (.map m) c
    obtain ⟨n, right, -⟩ := chore.of_map rfl
    rw [right] at chore
    exact ⟨d, n, left, right, agrees.chore_right chore⟩

/-- A store on both, after which the active writer of the bounded store is waited for. -/
theorem store_wait (shelf : Shelf) (h : Agrees now b m) (active : b.worker.isActive = true)
    (key : CacheKey) (s : Shared) :
    ∃ c n, ((Leaf.bounded b).store now key s).wait shelf now = .bounded c ∧
      ((Leaf.map m).store now key s).wait shelf now = .map n ∧ Agrees now c n := by
  have applied := BoundedStore.drain_store h.drained h.room key s shelf now
  have worker : (b.store key s).worker = b.worker := by
    unfold BoundedStore.store
    split <;> rfl
  refine ⟨_, _, rfl, rfl, ?_⟩
  rw [BoundedStore.wait, worker, if_pos active, applied]
  have waited := Leaf.chore_wait shelf now (.map (m.store now key s))
  exact ((h.apply key s shelf).setWorker_left _).chore_right waited

end Agrees
end Store

/-! ### Runs -/

/-- Clients wait after each of their stores. -/
def Action.settled : Action → List Action
  | .perform path (.store key s) => [.perform path (.store key s), .perform path (.chore .wait)]
  | .perform path (.load key) => [.perform path (.load key)]
  | .perform path (.delete key) => [.perform path (.delete key)]
  | .perform path (.deleteGroup name) => [.perform path (.deleteGroup name)]
  | .perform path (.chore c) => [.perform path (.chore c)]
  | .tick date => [.tick date]
  | .add r => [.add r]
  | .insertBody s coding body => [.insertBody s coding body]
  | .fetch s coding => [.fetch s coding]

theorem Action.eq_store_of_isStore {action : Action} (h : action.isStore = true) :
    ∃ path key s, action = .perform path (.store key s) := by
  cases action with
  | perform path op =>
    cases op with
    | store key s => exact ⟨path, key, s, rfl⟩
    | load | delete | deleteGroup | chore => cases h
  | tick | add | insertBody | fetch => cases h

theorem Action.settled_of_not_store {action : Action} (h : action.isStore = false) :
    action.settled = [action] := by
  cases action with
  | perform path op =>
    cases op with
    | store => cases h
    | load | delete | deleteGroup | chore => rfl
  | tick | add | insertBody | fetch => rfl

namespace Site

/-- Writers are active when something is stored, and nothing is loaded at the last date at which it
is fresh. No store gives up entries. -/
def Permits (bounded map : Site) : Operation → Prop
  | .store _ _ => bounded.backend.All fun l => l.worker.isActive = true
  | .load key => map.backend.All fun l => ∀ s ∈ l.stored? key, s.details.expiration ≠ map.now
  | .chore (.evict _) => False
  | .delete _ | .deleteGroup _ | .chore (.look _) | .chore .sweep | .chore .start | .chore .stop
  | .chore .wait | .chore .run => True

/-- In a run everything is permitted, and the entries that have not expired fit each time. -/
def Orderly (bounded map : Site) : List Action → Prop
  | [] => True
  | action :: rest => (∀ op ∈ action.root?, Permits bounded map op) ∧
    bounded.backend.All (Leaf.Fits bounded.now) ∧
    Orderly (bounded.run action.settled) (map.run action.settled) rest

instance (P : Leaf → Prop) [DecidablePred P] (b : Backend) : Decidable (b.All P) :=
  inferInstanceAs (Decidable (∀ l ∈ b.leaves, P l))

instance (bounded map : Site) (op : Operation) : Decidable (Permits bounded map op) :=
  match op with
  | .store _ _ =>
    inferInstanceAs (Decidable (bounded.backend.All fun l => l.worker.isActive = true))
  | .load key => inferInstanceAs (Decidable (map.backend.All fun l =>
      ∀ s ∈ l.stored? key, s.details.expiration ≠ map.now))
  | .chore (.evict _) => .isFalse id
  | .delete _ | .deleteGroup _ | .chore (.look _) | .chore .sweep | .chore .start | .chore .stop
  | .chore .wait | .chore .run => .isTrue trivial

instance decidableOrderly : ∀ (bounded map : Site) (actions : List Action),
    Decidable (Orderly bounded map actions)
  | _, _, [] => .isTrue trivial
  | bounded, map, action :: rest =>
    have := decidableOrderly (bounded.run action.settled) (map.run action.settled) rest
    inferInstanceAs (Decidable (_ ∧ _ ∧ _))

variable {site : Site} {b : BoundedStore} {m : MapStore} {action : Action}

/-- Any action but a store. -/
theorem agrees_step (h : Agrees site.now b m) (fits : (Leaf.bounded b).Fits site.now)
    (stores : action.isStore = false)
    (keeps : ∀ keep, action.root? ≠ some (.chore (.evict keep))) :
    ∃ (site' : Site) (c : BoundedStore) (n : MapStore),
      (site.withLeaf (.bounded b)).step action = site'.withLeaf (.bounded c) ∧
      (site.withLeaf (.map m)).step action = site'.withLeaf (.map n) ∧ Agrees site'.now c n := by
  rw [step_withLeaf, step_withLeaf]
  cases action with
  | perform path op =>
    cases path with
    | nil =>
      obtain ⟨c, n, left, right, agrees⟩ := h.perform site.shelf fits stores
        fun keep same => keeps keep (congrArg some same)
      exact ⟨site, c, n, congrArg _ left, congrArg _ right, agrees⟩
    | cons number path => exact ⟨site, b, m, rfl, rfl, h⟩
  | tick date => exact ⟨_, b, m, rfl, rfl, h.later (site.now.le_later date)⟩
  | add | insertBody | fetch => exact ⟨_, b, m, rfl, rfl, h⟩

/-- What does not expire now is found by both stores. -/
theorem agrees_answer (h : Agrees site.now b m)
    (permitted : ∀ op ∈ action.root?,
      Permits (site.withLeaf (.bounded b)) (site.withLeaf (.map m)) op) :
    (site.withLeaf (.bounded b)).answer action = (site.withLeaf (.map m)).answer action := by
  rw [answer_withLeaf, answer_withLeaf]
  split
  · next key root =>
    have lasts := Backend.all_leaf.1 (permitted _ root)
    have same : b.get? site.now key = (m.load site.now key).1 := by
      ext t
      rw [h.found]
      refine and_iff_left_of_imp fun load => ?_
      have stored := (MapStore.load_eq_some_iff.1 load).1
      exact Instant.lt_of_le_of_ne (MapStore.load_eq_some_iff.1 load).2 (lasts t stored).symm
    exact congrArg _ same
  · rfl

/-- Any action, and a store together with the wait for the writer. -/
theorem agrees_settled (h : Agrees site.now b m) (fits : (Leaf.bounded b).Fits site.now)
    (permitted : ∀ op ∈ action.root?,
      Permits (site.withLeaf (.bounded b)) (site.withLeaf (.map m)) op) :
    (∃ (site' : Site) (c : BoundedStore) (n : MapStore),
      (site.withLeaf (.bounded b)).run action.settled = site'.withLeaf (.bounded c) ∧
      (site.withLeaf (.map m)).run action.settled = site'.withLeaf (.map n) ∧
      Agrees site'.now c n) ∧
    (site.withLeaf (.bounded b)).answers action.settled =
      (site.withLeaf (.map m)).answers action.settled := by
  cases stores : action.isStore with
  | false =>
    rw [Action.settled_of_not_store stores]
    refine ⟨agrees_step h fits stores fun keep root => permitted _ root, ?_⟩
    exact congrArg (fun answer => [answer]) (agrees_answer h permitted)
  | true =>
    obtain ⟨path, key, s, rfl⟩ := Action.eq_store_of_isStore stores
    refine ⟨?_, rfl⟩
    unfold Action.settled run
    simp only [List.foldl_cons, List.foldl_nil, step_withLeaf]
    cases path with
    | nil =>
      have active := Backend.all_leaf.1 (permitted _ rfl)
      obtain ⟨c, n, left, right, agrees⟩ := h.store_wait site.shelf active key s
      exact ⟨site, c, n, congrArg _ left, congrArg _ right, agrees⟩
    | cons number path => exact ⟨site, b, m, rfl, rfl, h⟩

/-- Stores that agree give the same answers in every orderly run. -/
theorem agrees_answers (h : Agrees site.now b m) {actions : List Action}
    (orderly : Orderly (site.withLeaf (.bounded b)) (site.withLeaf (.map m)) actions) :
    (site.withLeaf (.bounded b)).answers (actions.flatMap Action.settled) =
      (site.withLeaf (.map m)).answers (actions.flatMap Action.settled) := by
  induction actions generalizing site b m with
  | nil => rfl
  | cons action rest ih =>
    obtain ⟨permitted, fits, later⟩ := orderly
    obtain ⟨⟨site', c, n, left, right, agrees⟩, same⟩ :=
      agrees_settled h (Backend.all_leaf.1 fits) permitted
    rw [left, right] at later
    rw [List.flatMap_cons, answers_append, answers_append, left, right, same, ih agrees later]

/-- **A bounded store whose queue is drained behaves as a map store.** A bounded store that was
built from options and an empty map store are used in the same way: clients wait for the active
writer after each of their stores, the entries that have not expired always fit, no store gives up
entries, and nothing is loaded at the last date at which it is fresh. Then every load from the one
gives what it gives from the other: nothing, or the same representation with the same bodies. -/
theorem bounded_answers_as_map {o : BoundedOptions} {b : BoundedStore} (built : o.build = .ok b)
    (site : Site) (period : Duration) {actions : List Action}
    (orderly : Orderly (site.withLeaf (.bounded b)) (site.withLeaf (.map (.empty period)))
      actions) :
    (site.withLeaf (.bounded b)).answers (actions.flatMap Action.settled) =
      (site.withLeaf (.map (.empty period))).answers (actions.flatMap Action.settled) := by
  obtain ⟨rfl, room, -⟩ := BoundedStore.of_build built
  exact agrees_answers (.of_empty room site.now o.period period) orderly

/-- A shelf with a page and a note. -/
def desk : Site where
  backend := .tiered []
  shelf := ⟨#[.insert .empty .identity [80, 65, 71, 69], .insert .empty .identity [78]], []⟩
  now := .ofSeconds 0

/-- A page and a note are stored, and the page again when the note has expired. Then the writer is
stopped, and the group of the page is deleted. -/
def deskWork : List Action :=
  [.perform [] (.chore .start),
    .perform [] (.store ⟨"page", "", "", ""⟩ ⟨⟨["news"], [], .ofSeconds 60⟩, 0⟩),
    .perform [] (.store ⟨"note", "", "", ""⟩ ⟨⟨[], [], .ofSeconds 20⟩, 1⟩),
    .perform [] (.load ⟨"note", "", "", ""⟩), .tick (.ofSeconds 21),
    .perform [] (.load ⟨"note", "", "", ""⟩),
    .perform [] (.store ⟨"page", "", "", ""⟩ ⟨⟨["sport"], [], .ofSeconds 90⟩, 0⟩),
    .perform [] (.deleteGroup "news"), .perform [] (.chore .stop),
    .perform [] (.load ⟨"page", "", "", ""⟩), .perform [] (.deleteGroup "sport"),
    .perform [] (.load ⟨"page", "", "", ""⟩)]

theorem bounded_answers_deskWork :
    Orderly (desk.withLeaf (.bounded (.empty ⟨100, 2⟩ (.ofSeconds 10))))
      (desk.withLeaf (.map (.empty (.ofSeconds 10)))) deskWork ∧
    (desk.withLeaf (.bounded (.empty ⟨100, 2⟩ (.ofSeconds 10)))).answers
        (deskWork.flatMap Action.settled) =
      (desk.withLeaf (.map (.empty (.ofSeconds 10)))).answers (deskWork.flatMap Action.settled) ∧
    ((desk.withLeaf (.bounded (.empty ⟨100, 2⟩ (.ofSeconds 10)))).answers
        (deskWork.flatMap Action.settled)).filterMap (·.map (·.details.expiration.seconds)) =
      [20, 90] := by
  have built : BoundedOptions.build ⟨100, 10, 2, .ofSeconds 10⟩ =
      .ok (.empty ⟨100, 2⟩ (.ofSeconds 10)) := rfl
  have orderly : Orderly (desk.withLeaf (.bounded (.empty ⟨100, 2⟩ (.ofSeconds 10))))
      (desk.withLeaf (.map (.empty (.ofSeconds 10)))) deskWork := by decide +kernel
  exact ⟨orderly, bounded_answers_as_map built desk (.ofSeconds 10) orderly, by decide +kernel⟩

end Site
end VariantCache
