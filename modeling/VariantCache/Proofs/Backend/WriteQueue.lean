import VariantCache.Proofs.Backend.SingleStore
import VariantCache.Proofs.Store.Effect
import VariantCache.Store.Options

/-!
# The queue of a bounded store

Clients store into a bounded store, load and delete; its worker is started and stopped at
any times. The books of the store balance in every run (`Site.books_run`), so a store
that was accepted is neither lost nor applied twice nor overtaken by another one.
-/

namespace VariantCache

open Store BoundedStore

/-- What an operation asks to be stored. -/
def Operation.offered? : Operation → Option (CacheKey × Shared)
  | .store key s => some (key, s)
  | .load _ | .delete _ | .deleteGroup _ | .chore _ => none

/-- What an action asks to be stored. -/
def Action.offered? (action : Action) : Option (CacheKey × Shared) :=
  action.root?.bind Operation.offered?

/-- What clients ask to be stored, in order. -/
def offered (actions : List Action) : List (CacheKey × Shared) := actions.filterMap Action.offered?

namespace Store

namespace BoundedStore

/-- What an operation does to the entries of a store. -/
def effects (now : Instant) (shelf : Shelf) (b : BoundedStore) : Operation → List Effect
  | .store _ _ | .load _ | .chore (.look _) | .chore .start => []
  | .delete key => [.delete key]
  | .deleteGroup name => [.deleteGroup now name]
  | .chore .sweep => [.sweep now]
  | .chore (.evict keep) => [.evict keep]
  | .chore .wait => if b.worker.isActive then b.backlog shelf now else []
  | .chore .stop => if b.worker.isActive then b.backlog shelf now ++ [.sweep now] else []
  | .chore .run => if (b.worker.runUntil now).1 then b.backlog shelf now ++ [.sweep now] else []

variable {now : Instant} {shelf : Shelf} {b : BoundedStore}

namespace Books

theorem wait (b : BoundedStore) :
    Books b (b.wait shelf now) [] [] (if b.worker.isActive then b.backlog shelf now else []) := by
  unfold BoundedStore.wait
  split
  · have drained := drain b shelf now
    have same : (b.worker.wake now).period = (b.drain shelf now).worker.period := by
      rw [drained.period, Worker.period_wake]
    simpa using drained.trans (setWorker _ same)
  · exact refl b

theorem stop (b : BoundedStore) :
    Books b (b.stop shelf now) [] []
      (if b.worker.isActive then b.backlog shelf now ++ [.sweep now] else []) := by
  unfold BoundedStore.stop
  split
  · have drained := drain b shelf now
    have swept : Books _ ((b.drain shelf now).sweep now) [] [] [.sweep now] :=
      effect (e := .sweep now) rfl (b.drain shelf now)
    have same : b.worker.stop.period = ((b.drain shelf now).sweep now).worker.period :=
      (drained.trans swept).period.symm
    simpa using (drained.trans swept).trans (setWorker _ same)
  · exact refl b

theorem runUntil (b : BoundedStore) :
    Books b (b.runUntil shelf now) [] []
      (if (b.worker.runUntil now).1 then b.backlog shelf now ++ [.sweep now] else []) := by
  have running := setWorker b (b.worker.period_runUntil now)
  unfold BoundedStore.runUntil
  simp only
  split
  · -- The worker waits for its next sweep already while it applies what waits.
    have drained := drain { b with worker := (b.worker.runUntil now).2 } shelf now
    have swept := effect (e := .sweep now) rfl
      (BoundedStore.drain { b with worker := (b.worker.runUntil now).2 } shelf now)
    exact running.trans (drained.trans swept)
  · exact running

end Books

/-- **The books balance for each operation.** -/
theorem books_perform (now : Instant) (shelf : Shelf) (b : BoundedStore) (op : Operation) :
    ∃ c, (Leaf.bounded b).perform now shelf op = .bounded c ∧
      Books b c op.offered?.toList
        (if c.dropped = b.dropped then op.offered?.toList else [])
        (b.effects now shelf op) := by
  have quiet {c : BoundedStore} {history : List Effect} (h : Books b c [] [] history) :
      Books b c [] (if c.dropped = b.dropped then [] else []) history := by rwa [ite_self]
  cases op with
  | store key s => exact ⟨_, rfl, .offer b key s⟩
  | load key => exact ⟨b, rfl, quiet (.refl b)⟩
  | delete key => exact ⟨_, rfl, quiet (.effect (e := .delete key) rfl b)⟩
  | deleteGroup name => exact ⟨_, rfl, quiet (.effect (e := .deleteGroup now name) rfl b)⟩
  | chore c =>
    cases c with
    | look name => exact ⟨b, rfl, quiet (.refl b)⟩
    | sweep => exact ⟨_, rfl, quiet (.effect (e := .sweep now) rfl b)⟩
    | evict keep => exact ⟨_, rfl, quiet (.effect (e := .evict keep) rfl b)⟩
    | wait => exact ⟨_, rfl, quiet (.wait b)⟩
    | stop => exact ⟨_, rfl, quiet (.stop b)⟩
    | run => exact ⟨_, rfl, quiet (.runUntil b)⟩
    | start =>
      show ∃ c, (Leaf.bounded b).startWorker.2 = .bounded c ∧ _
      unfold Leaf.startWorker
      split
      · exact ⟨b, rfl, quiet (.refl b)⟩
      · split
        · exact ⟨b, rfl, quiet (.refl b)⟩
        · exact ⟨_, rfl, quiet (.setWorker b rfl)⟩

/-! ### The worker -/

/-- Waiting for a writer and stopping it do the same to the queue: an active one applies all that
waits, and with a stopped one nothing happens. -/
theorem perform_wait_or_stop {chore : Chore} (which : chore = .wait ∨ chore = .stop)
    (now : Instant) (shelf : Shelf) (b : BoundedStore) :
    ∃ c, (Leaf.bounded b).perform now shelf (.chore chore) = .bounded c ∧
      (b.worker.isActive = true →
        c.queue = [] ∧ Effect.applied (b.effects now shelf (.chore chore)) = b.queue) ∧
      (b.worker.isActive = false → c = b) := by
  rcases which with rfl | rfl
  · refine ⟨_, rfl, fun active => ⟨?_, ?_⟩, fun stopped => by simp [wait, stopped]⟩
    · rw [wait, if_pos active]
      exact queue_drain b shelf now
    · rw [effects, if_pos active, applied_backlog]
  · refine ⟨_, rfl, fun active => ⟨?_, ?_⟩, fun stopped => by simp [stop, stopped]⟩
    · rw [stop, if_pos active]
      exact queue_drain b shelf now
    · rw [effects, if_pos active, Effect.applied_append, applied_backlog]
      exact List.append_nil _

/-- A worker that has a period can be started when it is stopped. -/
theorem startWorker_of_stopped (stopped : b.worker.isActive = false)
    (period : b.worker.period.isZero = false) :
    (Leaf.bounded b).startWorker.2 = .bounded { b with worker := b.worker.start } := by
  have stopped' : (Leaf.bounded b).worker.isActive = false := stopped
  have period' : (Leaf.bounded b).worker.period.isZero = false := period
  simp only [Leaf.startWorker, stopped', period', Bool.false_eq_true, if_false]
  rfl

/-- What is built has room in its queue, and its worker a period. -/
theorem of_build {o : BoundedOptions} (built : o.build = .ok b) :
    b = .empty ⟨o.maxSize, o.writeBuffer⟩ o.period ∧ 0 < o.writeBuffer ∧
      o.period.isZero = false := by
  unfold BoundedOptions.build at built
  cases valid : o.validate with
  | error e =>
    rw [valid] at built
    cases built
  | ok =>
    have positive : 0 < o.writeBuffer ∧ o.period.isZero = false := by
      unfold BoundedOptions.validate at valid
      grind
    rw [valid] at built
    replace built : (if o.writeBuffer ≤ queueLimit then
      Except.ok (empty ⟨o.maxSize, o.writeBuffer⟩ o.period) else .error _) = .ok b := built
    split at built
    · exact ⟨(Except.ok.inj built).symm, positive⟩
    · cases built

end BoundedStore

namespace Leaf

/-- How many stores were dropped. -/
def dropped : Leaf → Nat
  | map _ => 0
  | bounded b => b.dropped

/-- What an operation does to the entries, if the store is a bounded one. -/
def effects (now : Instant) (shelf : Shelf) (op : Operation) : Leaf → List Effect
  | map _ => []
  | bounded b => b.effects now shelf op

end Leaf
end Store

namespace Site

/-! ### Runs -/

/-- How many stores of clients were dropped. -/
def dropped (site : Site) : Nat := total (site.backend.leaves.map Leaf.dropped)

/-- What clients ask to be stored in some actions and is not dropped. -/
def accepted (site : Site) : List Action → List (CacheKey × Shared)
  | [] => []
  | action :: rest =>
    (if (site.step action).dropped = site.dropped then action.offered?.toList else []) ++
      (site.step action).accepted rest

/-- What an action does to the entries of the stores. -/
def effects (site : Site) (action : Action) : List Effect :=
  match action.root? with
  | some op => site.backend.leaves.flatMap (·.effects site.now site.shelf op)
  | none => []

/-- What some actions do to the entries of the stores. -/
def history (site : Site) : List Action → List Effect
  | [] => []
  | action :: rest => site.effects action ++ (site.step action).history rest

variable {site : Site} {b : BoundedStore}

theorem dropped_single (single : site.backend = .leaf (.bounded b)) : site.dropped = b.dropped := by
  simp [dropped, single, Backend.leaves, Leaf.dropped]

theorem effects_single (single : site.backend = .leaf (.bounded b)) (op : Operation) :
    site.effects (.perform [] op) = b.effects site.now site.shelf op := by
  simp [effects, Action.root?, single, Backend.leaves, Leaf.effects]

/-- The books balance for each action. -/
theorem books_step (single : site.backend = .leaf (.bounded b)) (action : Action) :
    ∃ c, (site.step action).backend = .leaf (.bounded c) ∧
      Books b c action.offered?.toList
        (if (site.step action).dropped = site.dropped then action.offered?.toList else [])
        (site.effects action) := by
  have after := backend_step single action
  unfold act at after
  unfold Action.offered? effects
  cases root : action.root? with
  | none =>
    rw [root] at after
    exact ⟨b, after, by simpa using Books.refl b⟩
  | some op =>
    rw [root] at after
    obtain ⟨c, performed, books⟩ := books_perform site.now site.shelf b op
    have single' := after.trans (congrArg _ performed)
    refine ⟨c, single', ?_⟩
    rw [dropped_single single', dropped_single single]
    simpa [single, Backend.leaves, Leaf.effects] using books

/-- **The books balance for every run.** -/
theorem books_run (single : site.backend = .leaf (.bounded b)) (actions : List Action) :
    ∃ c, (site.run actions).backend = .leaf (.bounded c) ∧
      Books b c (offered actions) (site.accepted actions) (site.history actions) := by
  unfold run
  induction actions generalizing site b with
  | nil => exact ⟨b, single, .refl b⟩
  | cons action rest ih =>
    obtain ⟨mid, single', first⟩ := books_step single action
    obtain ⟨c, after, others⟩ := ih single'
    refine ⟨c, after, ?_⟩
    have all : offered (action :: rest) = action.offered?.toList ++ offered rest := by
      rw [offered, List.filterMap_cons]
      cases action.offered? <;> rfl
    rw [all]
    exact first.trans others

/-! ### The next action -/

/-- A store is dropped if the queue is full, and only then. -/
theorem backend_store (single : site.backend = .leaf (.bounded b))
    (fits : b.queue.length ≤ b.limits.writeBuffer) (key : CacheKey) (s : Shared) :
    (site.step (.perform [] (.store key s))).backend = .leaf (.bounded
      (if b.queue.length = b.limits.writeBuffer then { b with dropped := b.dropped + 1 }
        else { b with queue := b.queue ++ [(key, s)] })) := by
  rw [backend_step single]
  show Backend.leaf (.bounded (b.store key s)) = _
  unfold BoundedStore.store
  split
  · next room => rw [if_neg (Nat.ne_of_lt room)]
  · next full => rw [if_pos (Nat.le_antisymm fits (Nat.not_lt.1 full))]

/-- An active writer applies what waits. -/
theorem queue_of_active {chore : Chore} (single : site.backend = .leaf (.bounded b))
    (active : b.worker.isActive = true) (which : chore = .wait ∨ chore = .stop) :
    ∃ d : BoundedStore, d.queue = [] ∧
      (site.step (.perform [] (.chore chore))).backend = .leaf (.bounded d) ∧
      Effect.applied (site.effects (.perform [] (.chore chore))) = b.queue := by
  obtain ⟨d, performed, applies, -⟩ := perform_wait_or_stop which site.now site.shelf b
  obtain ⟨empty, applied⟩ := applies active
  rw [effects_single single]
  exact ⟨d, empty, (backend_step single _).trans (congrArg _ performed), applied⟩

/-- Without a writer nothing happens. -/
theorem backend_of_stopped {chore : Chore} (single : site.backend = .leaf (.bounded b))
    (stopped : b.worker.isActive = false) (which : chore = .wait ∨ chore = .stop) :
    (site.step (.perform [] (.chore chore))).backend = .leaf (.bounded b) := by
  obtain ⟨d, performed, -, same⟩ := perform_wait_or_stop which site.now site.shelf b
  rw [same stopped] at performed
  exact (backend_step single _).trans (congrArg _ performed)

/-- A writer that is started again applies what waits. -/
theorem queue_of_started {chore : Chore} (single : site.backend = .leaf (.bounded b))
    (stopped : b.worker.isActive = false) (period : b.worker.period.isZero = false)
    (which : chore = .wait ∨ chore = .stop) :
    ∃ d : BoundedStore, d.queue = [] ∧
      (site.run [.perform [] (.chore .start), .perform [] (.chore chore)]).backend =
        .leaf (.bounded d) ∧
      Effect.applied (site.history [.perform [] (.chore .start), .perform [] (.chore chore)]) =
        b.queue := by
  have started : (site.step (.perform [] (.chore .start))).backend =
      .leaf (.bounded { b with worker := b.worker.start }) :=
    (backend_step single _).trans (congrArg _ (startWorker_of_stopped stopped period))
  obtain ⟨d, empty, after, applied⟩ := queue_of_active started rfl which
  refine ⟨d, empty, after, ?_⟩
  rw [history, history, history, effects_single single, List.append_nil]
  exact applied

/-- **No accepted store is lost, applied twice or overtaken.** A bounded store that was built from
options is used in any way, and its worker is started and stopped at any times. Then of the stores
that clients asked for each was dropped, was applied or waits; those that were accepted were
applied in their order, but for those at the end, which wait; and the entries are what this and
the deletions and sweeps in between make of them. The next store is dropped if and only if the
queue is full. Waiting for an active worker, or stopping it, empties the queue; with a stopped
worker both change nothing, and all that waits is applied as soon as the worker has been started
again. -/
theorem accepted_applied_in_order {o : BoundedOptions} {b : BoundedStore} (built : o.build = .ok b)
    {site : Site} (single : site.backend = .leaf (.bounded b)) (actions : List Action) :
    ∃ c : BoundedStore, (site.run actions).backend = .leaf (.bounded c) ∧
      c.queue.length ≤ o.writeBuffer ∧
      (offered actions).length =
        c.dropped + (Effect.applied (site.history actions)).length + c.queue.length ∧
      site.accepted actions = Effect.applied (site.history actions) ++ c.queue ∧
      c = (b.replay (site.history actions)).withFront c ∧
      (∀ key s, ((site.run actions).step (.perform [] (.store key s))).backend = .leaf (.bounded
        (if c.queue.length = o.writeBuffer then { c with dropped := c.dropped + 1 }
          else { c with queue := c.queue ++ [(key, s)] }))) ∧
      ∀ chore, chore = .wait ∨ chore = .stop →
        (c.worker.isActive = true → ∃ d : BoundedStore, d.queue = [] ∧
          ((site.run actions).step (.perform [] (.chore chore))).backend = .leaf (.bounded d)) ∧
        (c.worker.isActive = false →
          ((site.run actions).step (.perform [] (.chore chore))).backend = .leaf (.bounded c) ∧
          ∃ d : BoundedStore, d.queue = [] ∧
            ((site.run actions).run
              [.perform [] (.chore .start), .perform [] (.chore chore)]).backend =
                .leaf (.bounded d) ∧
            Effect.applied ((site.run actions).history
              [.perform [] (.chore .start), .perform [] (.chore chore)]) = c.queue) := by
  obtain ⟨rfl, -, period⟩ := of_build built
  obtain ⟨c, after, books⟩ := books_run single actions
  have limit : c.limits.writeBuffer = o.writeBuffer := congrArg (·.writeBuffer) books.limits
  have fits : c.queue.length ≤ o.writeBuffer := limit ▸ books.fits (Nat.zero_le _)
  have count := books.count
  simp only [BoundedStore.empty, List.length_nil, Nat.zero_add] at count
  refine ⟨c, after, fits, count, books.order, books.held, ?_, ?_⟩
  · intro key s
    have stored := backend_store after (limit.symm ▸ fits) key s
    rwa [limit] at stored
  · intro chore which
    constructor
    · intro active
      obtain ⟨d, empty, done, -⟩ := queue_of_active after active which
      exact ⟨d, empty, done⟩
    · intro stopped
      have hasPeriod : c.worker.period.isZero = false := books.period ▸ period
      exact ⟨backend_of_stopped after stopped which,
        queue_of_started after stopped hasPeriod which⟩

/-- A bounded store where two stores may wait. -/
def smallQueue : Site where
  backend := .leaf (.bounded (.empty ⟨1000, 2⟩ (.ofSeconds 10)))
  shelf := ⟨#[.empty], []⟩
  now := .ofSeconds 0

/-- A page is stored under a name. -/
def storeAs (name : String) : Action :=
  .perform [] (.store ⟨name, "", "", ""⟩ ⟨⟨["pages"], [], .ofSeconds 60⟩, 0⟩)

/-- The page of a name is loaded. -/
def loadAs (name : String) : Action := .perform [] (.load ⟨name, "", "", ""⟩)

/-- Three pages are stored before the writer is started, one before it is stopped, and one after
that. -/
def fivePages : List Action :=
  [storeAs "a", storeAs "b", storeAs "c", .perform [] (.chore .start), .perform [] (.chore .wait),
    storeAs "d", .perform [] (.chore .stop), storeAs "e", .perform [] (.chore .wait)]

/-- The third page is dropped and the last one waits; the others are applied in order, and are found. -/
theorem accepted_smallQueue :
    (∃ c : BoundedStore, (smallQueue.run fivePages).backend = .leaf (.bounded c) ∧
      (offered fivePages).length =
        c.dropped + (Effect.applied (smallQueue.history fivePages)).length + c.queue.length ∧
      smallQueue.accepted fivePages =
        Effect.applied (smallQueue.history fivePages) ++ c.queue ∧
      c = ((empty ⟨1000, 2⟩ (.ofSeconds 10)).replay (smallQueue.history fivePages)).withFront c) ∧
    (smallQueue.accepted fivePages).map (·.1.logicalKey) = ["a", "b", "d", "e"] ∧
    (Effect.applied (smallQueue.history fivePages)).map (·.1.logicalKey) = ["a", "b", "d"] ∧
    (smallQueue.run fivePages).dropped = 1 ∧
    (["a", "b", "c", "d", "e"].map fun name =>
      ((smallQueue.run fivePages).answer (loadAs name)).map (·.details.groups)) =
        [some ["pages"], some ["pages"], none, some ["pages"], none] := by
  have built : BoundedOptions.build ⟨1000, 10, 2, .ofSeconds 10⟩ =
      .ok (.empty ⟨1000, 2⟩ (.ofSeconds 10)) := rfl
  have single : smallQueue.backend = .leaf (.bounded (.empty ⟨1000, 2⟩ (.ofSeconds 10))) := rfl
  obtain ⟨c, after, -, count, order, held, -⟩ := accepted_applied_in_order built single fivePages
  exact ⟨⟨c, after, count, order, held⟩, by decide +kernel, by decide +kernel, by decide +kernel,
    by decide +kernel⟩

end Site
end VariantCache
