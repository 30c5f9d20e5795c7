import VariantCache.Proofs.Backend.Starting
import VariantCache.Proofs.Lifecycle.Crew

/-!
# All workers or none

The workers of the stores of a backend are a crew, known by the numbers of the stores
(`Backend.crew`): a store refuses to start its worker when it is active or has no period, and
starting or stopping one of them leaves all other stores alone.

For a list of workers of any crew, a start is all or nothing (`Crew.start_all_or_nothing`): it
starts all of them, or else the first that refuses decides on the error, and those that were started
before it are stopped again. Either way a stop afterwards leaves none of them running.
-/

namespace VariantCache

open Store

namespace Store.Leaf

/-- Why the store would not start its worker, if it would not. -/
def refusal? (l : Leaf) : Option CacheError :=
  if l.worker.period.isZero then some (.invalidConfig "prune_frequency" .notPositive)
  else if l.worker.isActive then some (.alreadyStarted l.workerName)
  else none

theorem startWorker_of_refusal {l : Leaf} {e : CacheError} (h : l.refusal? = some e) :
    l.startWorker = (.error e, l) := by
  unfold refusal? at h
  unfold startWorker
  split at h
  · next zero =>
    cases h
    rw [if_pos zero]
  · next nonzero =>
    split at h
    · next active =>
      cases h
      rw [if_neg nonzero, if_pos active]
    · cases h

theorem refusal?_eq_none_iff {l : Leaf} : l.refusal? = none ↔ l.IsReady := by
  unfold refusal? IsReady
  split
  · next zero => simp [zero]
  · next nonzero =>
    split
    · next active => simp [active]
    · next idle => simp [nonzero, idle]

/-- To stop a worker that is not active does nothing. -/
theorem stopWorker_of_stopped {l : Leaf} (stopped : l.worker.isActive = false) (shelf : Shelf)
    (now : Instant) : l.stopWorker shelf now = l := by
  cases l with
  | bounded b => simp only [stopWorker, BoundedStore.stop, show b.worker.isActive = false from stopped,
      Bool.false_eq_true, if_false]
  | map m =>
    obtain ⟨entries, groups, evictions, period, activity⟩ := m
    cases activity with
    | stopped => rfl
    | started | running => cases stopped

theorem isActive_stopWorker (shelf : Shelf) (now : Instant) (l : Leaf) :
    (l.stopWorker shelf now).worker.isActive = false := by
  cases l with
  | map m => rfl
  | bounded b =>
    simp only [stopWorker, worker, BoundedStore.stop]
    split
    · rfl
    · next idle => simpa using idle

end Store.Leaf

namespace Backend

variable {b : Backend} {number i : Nat} {l : Leaf}

/-! ### One store of several -/

theorem getElem?_update (f : Leaf → Leaf) (b : Backend) (number i : Nat) :
    (b.update number f).leaves[i]? = (b.leaves[i]?).map fun l => if i = number then f l else l := by
  rw [update, leaves_mapLeaves, List.getElem?_mapIdx]
  simp only [Nat.zero_add]

theorem length_update (f : Leaf → Leaf) (b : Backend) (number : Nat) :
    (b.update number f).leaves.length = b.leaves.length := by
  rw [update, leaves_mapLeaves, List.length_mapIdx]

/-- A change that leaves the store as it is changes nothing. -/
theorem update_eq_self {f : Leaf → Leaf} (same : ∀ l, b.leaves[number]? = some l → f l = l) :
    b.update number f = b := by
  have unchanged : b.update number f = b.each id := by
    refine mapLeaves_congr 0 b fun i l hl => ?_
    rw [Nat.zero_add]
    split
    · next here => exact same l (here ▸ hl)
    · rfl
  rw [unchanged, each_id]

/-! ### The crew of a backend -/

/-- The worker of the store is active. -/
def RunsWorker (b : Backend) (number : Nat) : Prop :=
  ∃ l, b.leaves[number]? = some l ∧ l.worker.isActive = true

theorem startWorker_of_refusal {e : CacheError} (h : (b.leaves[number]?).bind Leaf.refusal? = some e) :
    b.startWorker number = (.error e, b) := by
  obtain ⟨l, here, refusal⟩ := Option.bind_eq_some_iff.1 h
  unfold startWorker
  simp only [here, Leaf.startWorker_of_refusal refusal]
  rw [update_eq_self fun l' here' => Option.some.inj (here.symm.trans here')]

theorem startWorker_of_here (here : b.leaves[number]? = some l) (ready : l.IsReady) :
    b.startWorker number = (.ok (), b.update number fun _ => l.started) := by
  unfold startWorker
  simp only [here, Leaf.startWorker_of_ready ready]

/-- Of all workers, only the one that is started becomes active. -/
theorem runsWorker_started (here : b.leaves[number]? = some l) (i : Nat) :
    (b.update number fun _ => l.started).RunsWorker i ↔ i = number ∨ b.RunsWorker i := by
  unfold RunsWorker
  rw [getElem?_update]
  by_cases same : i = number
  · subst same
    rw [here]
    simp [Leaf.worker_started, Worker.start, Worker.isActive]
  · simp [same]

/-- Of all workers, only the one that is stopped is no more active. -/
theorem runsWorker_stopped (shelf : Shelf) (now : Instant) (b : Backend) (number i : Nat) :
    (b.update number (·.stopWorker shelf now)).RunsWorker i ↔ i ≠ number ∧ b.RunsWorker i := by
  unfold RunsWorker
  rw [getElem?_update]
  by_cases same : i = number
  · subst same
    simp [Leaf.isActive_stopWorker]
  · simp [same]

/-- The workers of a backend, by the numbers of their stores. -/
def crew (shelf : Shelf) (now : Instant) : Crew Nat Backend CacheError where
  worker number := ⟨toString number, startWorker number, update number (·.stopWorker shelf now)⟩
  Has b number := number < b.leaves.length
  Runs := RunsWorker
  refusal? b number := (b.leaves[number]?).bind Leaf.refusal?
  refuses_of_runs := by
    rintro b number ⟨l, here, active⟩ free
    rw [here, Option.bind_some] at free
    rw [(Leaf.refusal?_eq_none_iff.1 free).1] at active
    cases active
  start_of_refusal := startWorker_of_refusal
  start_of_none := by
    intro b number here free
    have found := List.getElem?_eq_getElem here
    rw [found, Option.bind_some] at free
    refine ⟨_, startWorker_of_here found (Leaf.refusal?_eq_none_iff.1 free), fun i => ⟨?_, ?_, ?_⟩⟩
    · rw [length_update]
    · exact runsWorker_started found i
    · intro other
      rw [getElem?_update]
      simp [other]
  stop_runs {b number} i := ⟨by rw [length_update], runsWorker_stopped shelf now b number i⟩
  stop_of_not_runs := by
    intro b number idle
    refine update_eq_self fun l here => Leaf.stopWorker_of_stopped ?_ shelf now
    rw [← Bool.not_eq_true]
    exact fun active => idle ⟨l, here, active⟩

/-- The workers that a backend is started with are those of its crew. -/
theorem lifecycle_eq_team (shelf : Shelf) (now : Instant) (b : Backend) :
    b.lifecycle shelf now = (crew shelf now).team (List.range b.leaves.length) := rfl

end Backend

/-! ### All or nothing -/

namespace Crew

open Lifecycle

/-- **A start is all or nothing.** Workers of a crew are started in a list, in which one may occur
more than once; some may run already, and some may refuse. The start succeeds exactly when each of them
in turn starts, that is, when none occurs twice and none would refuse; then all were asked to start and
nothing else, and they run beside the workers that ran before. Otherwise its error is that of the first
worker that refuses: the workers before it have started, and are all that were stopped, the last one
first. None of them ran before, and in the end the same workers run as before.
A stop afterwards leaves none of the workers running and no other one stopped, and a second one
does nothing. -/
theorem start_all_or_nothing {W S E : Type} (crew : Crew W S E) {ws : List W} {s : S}
    (there : ∀ w ∈ ws, crew.Has s w) :
    let run := (crew.team ws).start s
    let recorded := Lifecycle.start (ws.map (record crew.worker)) (s, [])
    (recorded.1 = run.1 ∧ recorded.2.1 = run.2) ∧
    (run.1 = .ok () ↔ InTurn (crew.team ws) s run.2) ∧
    (run.1 = .ok () ↔ ws.Nodup ∧ ∀ w ∈ ws, crew.refusal? s w = none) ∧
    (run.1 = .ok () → recorded.2.2 = ws.map .start ∧
      ∀ v, crew.Runs run.2 v ↔ v ∈ ws ∨ crew.Runs s v) ∧
    (∀ e, run.1 = .error e →
      ∃ before w after reached, ws = before ++ w :: after ∧ InTurn (crew.team before) s reached ∧
        (crew.worker w).start reached = (.error e, reached) ∧
        recorded.2.2 = (before ++ [w]).map .start ++ before.reverse.map .stop ∧
        (∀ v ∈ before, ¬ crew.Runs s v) ∧ ∀ v, crew.Runs run.2 v ↔ crew.Runs s v) ∧
    (∀ v, crew.Runs ((crew.team ws).stop run.2) v ↔ v ∉ ws ∧ crew.Runs run.2 v) ∧
    (crew.team ws).stop ((crew.team ws).stop run.2) = (crew.team ws).stop run.2 := by
  intro run recorded
  have success : run.1 = .ok () ↔ InTurn (crew.team ws) s run.2 := by
    constructor
    · intro ok
      exact start_eq_ok_iff.1 (Prod.ext ok rfl)
    · intro h
      exact congrArg Prod.fst (start_eq_ok_iff.2 h)
  have failure (e : E) (error : run.1 = .error e) := exists_refused there (Prod.ext error rfl)
  refine ⟨?_, success, ?_, ?_, ?_, ?_, stop_stop ws run.2⟩
  · cases outcome : run.1 with
    | ok =>
      have h := start_record_of_inTurn (success.1 outcome)
      exact ⟨congrArg Prod.fst h, congrArg (·.2.1) h⟩
    | error e =>
      obtain ⟨before, w, after, reached, rfl, inTurn, refuses, stopped⟩ := failure e outcome
      have h := start_record_of_refused inTurn refuses after
      exact ⟨congrArg Prod.fst h, (congrArg (·.2.1) h).trans stopped.symm⟩
  · rw [success, ← exists_inTurn_iff there]
    constructor
    · intro h
      exact ⟨run.2, h⟩
    · rintro ⟨last, h⟩
      have ok : run = (.ok (), last) := start_eq_ok_iff.2 h
      rwa [ok]
  · intro ok
    have h := success.1 ok
    exact ⟨congrArg (·.2.2) (start_record_of_inTurn h), fun v => (spec_of_inTurn there h v).2⟩
  · intro e error
    obtain ⟨before, w, after, reached, rfl, inTurn, refuses, stopped⟩ := failure e error
    have there' : ∀ u ∈ before, crew.Has s u := fun u hu => there u (List.mem_append_left _ hu)
    refine ⟨before, w, after, reached, rfl, inTurn, refuses, ?_, ?_, ?_⟩
    · exact congrArg (·.2.2) (start_record_of_refused inTurn refuses after)
    · intro v hv
      exact not_runs_of_inTurn there' inTurn hv
    · intro v
      rw [show run.2 = _ from stopped]
      exact runs_rollback there' inTurn v
  · intro v
    rw [stop_team, (spec_stopAll ws.reverse run.2 v).2, List.mem_reverse]

/-- A map store over a bounded store and another map store, whose worker is active. -/
def lastActive : Backend :=
  let period := Duration.ofSeconds 10
  .tiered [.leaf (.map (.empty period)),
    .tiered [.leaf (.bounded (.empty ⟨1000, 8⟩ period)), .leaf (Leaf.map (.empty period)).started]]

/-- The first store is listed twice and refuses the second time. It and the second store are
stopped again; the third store was not reached, and is still active. -/
theorem start_all_or_nothing_listedTwice :
    let crew := Backend.crew .empty (Instant.ofSeconds 0)
    (∀ number ∈ [0, 1, 0, 2], crew.Has lastActive number) ∧
      ((crew.team [0, 1, 0, 2]).start lastActive).1 = .error (.alreadyStarted "map-pruner") ∧
      ((Lifecycle.start ([0, 1, 0, 2].map (record crew.worker)) (lastActive, [])).2.2 =
        [.start 0, .start 1, .start 0, .stop 1, .stop 0]) ∧
      (∀ number, crew.Runs ((crew.team [0, 1, 0, 2]).start lastActive).2 number ↔
        crew.Runs lastActive number) ∧
      crew.Runs lastActive 2 := by
  intro crew
  have there : ∀ number ∈ [0, 1, 0, 2], crew.Has lastActive number := by
    show ∀ number ∈ [0, 1, 0, 2], number < 3
    decide
  have refused : ((crew.team [0, 1, 0, 2]).start lastActive).1 =
      .error (.alreadyStarted "map-pruner") := rfl
  obtain ⟨-, -, -, -, failure, -⟩ := start_all_or_nothing crew there
  obtain ⟨before, w, after, reached, -, -, -, -, -, same⟩ := failure _ refused
  exact ⟨there, refused, rfl, same, _, rfl, rfl⟩

end Crew
end VariantCache
