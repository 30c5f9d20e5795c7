import VariantCache.Proofs.Backend.Flattening

/-!
# Nesting does not matter

A client uses a backend as a whole, and the single stores live their own lives meanwhile:
they are looked at and swept, give up entries, and their workers are started, stopped and
left to run. Two clients do the same, each with a tree of its own; since one representation
has other places in either tree, they call it by a number. As long as the stores of the trees
are twins from left to right, each act is answered alike and leaves twins
(`Client.Alike.step`), however the tiers are nested. So a tree behaves as one list of tiers
with the same stores (`Client.nesting_irrelevant`).
-/

namespace VariantCache

open Store

/-! ### Workers of two systems -/

section

variable {S S' E : Type} {R : S → S' → Prop}

/-- Two workers have one name, and do the same to related states. -/
structure Startable.Alike (R : S → S' → Prop) (w : Startable S E) (w' : Startable S' E) : Prop where
  name : w.name = w'.name
  start : ∀ {state state'}, R state state' →
    (w.start state).1 = (w'.start state').1 ∧ R (w.start state).2 (w'.start state').2
  stop : ∀ {state state'}, R state state' → R (w.stop state) (w'.stop state')

namespace Lifecycle

variable {workers started : List (Startable S E)} {workers' started' : List (Startable S' E)}
  {state : S} {state' : S'}

theorem stopAll_alike (alike : List.Forall₂ (Startable.Alike R) workers workers')
    (h : R state state') : R (stopAll workers state) (stopAll workers' state') :=
  List.rel_foldl (fun _ _ same _ _ worker => worker.stop same) h alike

theorem startAfter_alike (earlier : List.Forall₂ (Startable.Alike R) started started')
    (later : List.Forall₂ (Startable.Alike R) workers workers') (h : R state state') :
    (startAfter started workers state).1 = (startAfter started' workers' state').1 ∧
      R (startAfter started workers state).2 (startAfter started' workers' state').2 := by
  induction later generalizing started started' state state' with
  | nil => exact ⟨rfl, h⟩
  | @cons w w' rest rest' alike _ ih =>
    obtain ⟨same, begun⟩ := alike.start h
    rw [startAfter, startAfter]
    generalize w.start state = result at *
    generalize w'.start state' = result' at *
    obtain ⟨outcome, after⟩ := result
    obtain ⟨outcome', after'⟩ := result'
    obtain rfl : outcome = outcome' := same
    cases outcome with
    | ok => exact ih (.cons alike earlier) begun
    | error e => exact ⟨rfl, stopAll_alike earlier begun⟩

end Lifecycle
end

/-! ### Twin trees -/

namespace Backend

/-- The stores of two trees are twins, from left to right. -/
def Twins (shelf shelf' : Shelf) (b b' : Backend) : Prop :=
  List.Forall₂ (Leaf.Twins shelf shelf') b.leaves b'.leaves

namespace Twins

variable {shelf larger shelf' larger' : Shelf} {b b' : Backend}

theorem grows (h : b.Twins shelf shelf' b') (g : shelf.Grows larger) (g' : shelf'.Grows larger') :
    b.Twins larger larger' b' :=
  h.imp fun _ _ twins => twins.grows g g'

theorem each (h : b.Twins shelf shelf' b') {f g : Leaf → Leaf}
    (step : ∀ l l', l.Twins shelf shelf' l' → (f l).Twins shelf shelf' (g l')) :
    (b.each f).Twins shelf shelf' (b'.each g) := by
  rw [Twins, leaves_each, leaves_each]
  exact List.rel_map step h

theorem update (h : b.Twins shelf shelf' b') (number : Nat) {f g : Leaf → Leaf}
    (step : ∀ l l', l.Twins shelf shelf' l' → (f l).Twins shelf shelf' (g l')) :
    (b.update number f).Twins shelf shelf' (b'.update number g) := by
  rw [Twins, Backend.update, Backend.update, leaves_mapLeaves, leaves_mapLeaves]
  refine forall₂_mapIdx h fun n l l' twins => ?_
  split
  · exact step l l' twins
  · exact twins

theorem store (h : b.Twins shelf shelf' b') (now : Instant) (key : CacheKey) {s s' : Shared}
    (twin : Twin shelf shelf' s s') :
    (b.store now key s shelf).2.Twins (b.store now key s shelf).1 (b'.store now key s' shelf').1
      (b'.store now key s' shelf').2 := by
  obtain ⟨r, has, has'⟩ := twin
  exact stored_twins (stored_leaves b has) (stored_leaves b' has')
    (h.grows (grows_store now key s shelf b) (grows_store now key s' shelf' b'))

/-- What is found in the stores of both stands on their shelves. -/
theorem findsPlaced (h : b.Twins shelf shelf' b') (now : Instant) (key : CacheKey) :
    b.All (FindsPlaced now key shelf) ∧ b'.All (FindsPlaced now key shelf') := by
  refine forall_mem_of_forall₂ h fun l l' twins => ?_
  have loads := (twins.load now key).1
  refine ⟨fun s found => ?_, fun s found => ?_⟩
  · rw [found] at loads
    generalize (l'.load now key).1 = other at loads
    obtain ⟨r, has, -⟩ | _ := loads
    exact has.place_lt
  · rw [found] at loads
    generalize (l.load now key).1 = other at loads
    obtain ⟨r, -, has⟩ | _ := loads
    exact has.place_lt

theorem load (h : b.Twins shelf shelf' b') (now : Instant) (key : CacheKey) :
    Option.Rel (Twin (b.load now key shelf).2.1 (b'.load now key shelf').2.1)
        (b.load now key shelf).1 (b'.load now key shelf').1 ∧
      (b.load now key shelf).2.2.Twins (b.load now key shelf).2.1 (b'.load now key shelf').2.1
        (b'.load now key shelf').2.2 := by
  obtain ⟨result, found, fetched⟩ := fetched_leaves b (h.findsPlaced now key).1
  obtain ⟨result', found', fetched'⟩ := fetched_leaves b' (h.findsPlaced now key).2
  obtain ⟨rfl, after⟩ := fetched.twins fetched'
    (h.grows (grows_load now key shelf b) (grows_load now key shelf' b'))
  refine ⟨?_, after⟩
  generalize (b.load now key shelf).1 = hit at found
  generalize (b'.load now key shelf').1 = hit' at found'
  cases found with
  | none =>
    cases found'
    exact .none
  | @some s r has =>
    obtain ⟨has'⟩ := found'
    exact .some ⟨r, has, has'⟩

/-- The worker of one store starts in both trees, or refuses to for one reason. -/
theorem startWorker (h : b.Twins shelf shelf' b') (number : Nat) :
    (b.startWorker number).1 = (b'.startWorker number).1 ∧
      (b.startWorker number).2.Twins shelf shelf' (b'.startWorker number).2 := by
  have leaves := getElem?_of_forall₂ h number
  unfold Backend.startWorker
  generalize b.leaves[number]? = found at *
  generalize b'.leaves[number]? = found' at *
  cases leaves with
  | none => exact ⟨rfl, h⟩
  | some twins =>
    obtain ⟨same, started⟩ := twins.startWorker
    exact ⟨same, h.update number fun _ _ _ => started⟩

theorem workers_alike (shelf shelf' : Shelf) (now : Instant) (numbers : List Nat) :
    List.Forall₂ (Startable.Alike (Backend.Twins shelf shelf')) (workers shelf now numbers)
      (workers shelf' now numbers) := by
  simp only [workers, List.forall₂_map_left_iff, List.forall₂_map_right_iff]
  refine List.forall₂_same.2 fun number _ => ⟨rfl, fun h => h.startWorker number, fun h => ?_⟩
  exact h.update number fun _ _ twins => twins.stopWorker now

/-- The workers of both trees are the same, in the same order. -/
theorem lifecycle (h : b.Twins shelf shelf' b') (now : Instant) :
    List.Forall₂ (Startable.Alike (Backend.Twins shelf shelf')) (b.lifecycle shelf now)
      (b'.lifecycle shelf' now) := by
  rw [Backend.lifecycle, Backend.lifecycle, List.Forall₂.length_eq h]
  exact workers_alike shelf shelf' now _

theorem start (h : b.Twins shelf shelf' b') (now : Instant) :
    (b.start shelf now).1 = (b'.start shelf' now).1 ∧
      (b.start shelf now).2.Twins shelf shelf' (b'.start shelf' now).2 :=
  Lifecycle.startAfter_alike .nil (h.lifecycle now) h

theorem stop (h : b.Twins shelf shelf' b') (now : Instant) :
    (b.stop shelf now).Twins shelf shelf' (b'.stop shelf' now) :=
  Lifecycle.stopAll_alike (List.rel_reverse (h.lifecycle now)) h

end Twins

/-- The same stores in one list of tiers. -/
def flat (b : Backend) : Backend := tiered (b.leaves.map leaf)

theorem leavesOf_leaf (ls : List Leaf) : leavesOf (ls.map leaf) = ls := by
  induction ls with
  | nil => rfl
  | cons l ls ih => rw [List.map_cons, leavesOf, ih, leaves, List.singleton_append]

@[simp] theorem leaves_flat (b : Backend) : b.flat.leaves = b.leaves := leavesOf_leaf b.leaves

end Backend

/-! ### Clients -/

/-- What happens to a single store, or is done with it. -/
inductive Task where
  /-- Looks at a group. -/
  | look (name : String)
  | sweep
  /-- A bounded store gives up entries for want of room. -/
  | evict (keep : CacheKey → Representation → (weight : Nat) → Bool)
  | stop
  | wait
  /-- Lets the worker run, if it is active. -/
  | run

/-- The store after a task. -/
def Task.perform (shelf : Shelf) (now : Instant) (l : Leaf) : Task → Leaf
  | look name => l.look now name
  | sweep => l.sweep now
  | evict keep => l.evict fun key held => keep key (shelf.read held.shared) held.weight
  | stop => l.stopWorker shelf now
  | wait => l.wait shelf now
  | run => l.runUntil shelf now

theorem Task.perform_twins {shelf shelf' : Shelf} {now : Instant} {l l' : Leaf} (task : Task)
    (h : l.Twins shelf shelf' l') :
    (task.perform shelf now l).Twins shelf shelf' (task.perform shelf' now l') := by
  cases task with
  | look name => exact h.look now name
  | sweep => exact h.sweep now
  | evict keep =>
    refine h.evict fun key held held' twins => ?_
    rw [twins.1.read, twins.2]
  | stop => exact h.stopWorker now
  | wait => exact h.wait now
  | run => exact h.runUntil now

/-- A backend in use by a client. -/
structure Client where
  backend : Backend
  shelf : Shelf
  now : Instant
  /-- The representations that the client has made and was given, first come first. -/
  held : List Shared

namespace Client

/-- The client of a backend who has no representations. -/
def ofBackend (backend : Backend) (shelf : Shelf) (now : Instant) : Client :=
  ⟨backend, shelf, now, []⟩

/-- What a client does, or happens meanwhile. -/
inductive Act where
  /-- Makes a representation. -/
  | make (r : Representation)
  /-- Stores one of the representations that the client has, if it has so many. -/
  | store (key : CacheKey) (number : Nat)
  | load (key : CacheKey)
  | delete (key : CacheKey)
  | deleteGroup (name : String)
  /-- Starts every worker, or none. -/
  | start
  | stop
  /-- Starts the worker of one store, by its number from left to right. -/
  | startWorker (number : Nat)
  /-- Something happens to one store. -/
  | task (number : Nat) (task : Task)
  /-- The clock is set, but never back. -/
  | tick (date : Instant)

/-- What a client is answered. -/
inductive Answer where
  | done
  | found (r : Option Representation)
  | begun (result : Except CacheError Unit)

/-- The answer to an act, and the client after it. -/
def step (c : Client) : Act → Answer × Client
  | .make r =>
    let (s, shelf) := c.shelf.add r
    (.done, { c with shelf, held := c.held ++ [s] })
  | .store key number =>
    match c.held[number]? with
    | none => (.done, c)
    | some s =>
      let (shelf, backend) := c.backend.store c.now key s c.shelf
      (.done, { c with shelf, backend })
  | .load key =>
    let (found, shelf, backend) := c.backend.load c.now key c.shelf
    (.found (found.map shelf.read), { c with shelf, backend, held := c.held ++ found.toList })
  | .delete key => (.done, { c with backend := c.backend.delete key })
  | .deleteGroup name => (.done, { c with backend := c.backend.deleteGroup c.now name })
  | .start =>
    let (result, backend) := c.backend.start c.shelf c.now
    (.begun result, { c with backend })
  | .stop => (.done, { c with backend := c.backend.stop c.shelf c.now })
  | .startWorker number =>
    let (result, backend) := c.backend.startWorker number
    (.begun result, { c with backend })
  | .task number task =>
    (.done, { c with backend := c.backend.update number fun l => task.perform c.shelf c.now l })
  | .tick date => (.done, { c with now := c.now.later date })

/-- The client after some acts. -/
def run (c : Client) (acts : List Act) : Client := acts.foldl (fun c act => (c.step act).2) c

/-- The answers to some acts, one after the other. -/
def answers (c : Client) : List Act → List Answer
  | [] => []
  | act :: rest => (c.step act).1 :: (c.step act).2.answers rest

/-- All that can be seen of the stores, from left to right. -/
def inventories (c : Client) : List Inventory := c.backend.leaves.map (·.inventory c.shelf)

/-- The workers in the order in which they are started: the number of the store and the name of the
worker of each. -/
def startables (c : Client) : List (String × String) :=
  ((c.backend.lifecycle c.shelf c.now).map (·.name)).zip c.backend.workerNames

/-- Two clients with twin trees, who have the same representations. -/
structure Alike (c c' : Client) : Prop where
  stores : c.backend.Twins c.shelf c'.shelf c'.backend
  held : List.Forall₂ (Twin c.shelf c'.shelf) c.held c'.held
  now : c.now = c'.now

namespace Alike

variable {c c' : Client}

theorem inventories (h : c.Alike c') : c.inventories = c'.inventories :=
  map_eq_of_forall₂ h.stores fun _ _ twins => twins.inventory

theorem startables (h : c.Alike c') : c.startables = c'.startables := by
  have numbers : (c.backend.lifecycle c.shelf c.now).map (·.name) =
      (c'.backend.lifecycle c'.shelf c'.now).map (·.name) := by
    rw [← h.now]
    exact map_eq_of_forall₂ (h.stores.lifecycle c.now) fun _ _ same => same.name
  have names : c.backend.workerNames = c'.backend.workerNames :=
    map_eq_of_forall₂ h.stores fun _ _ twins => twins.workerName
  rw [Client.startables, numbers, names, Client.startables]

theorem withBackend (h : c.Alike c') {b b' : Backend} (stores : b.Twins c.shelf c'.shelf b') :
    { c with backend := b }.Alike { c' with backend := b' } :=
  { h with stores }

theorem make (h : c.Alike c') (r : Representation) :
    (c.step (.make r)).2.Alike (c'.step (.make r)).2 := by
  have grows := c.shelf.grows_add r
  have grows' := c'.shelf.grows_add r
  have twin : Twin (c.shelf.add r).2 (c'.shelf.add r).2 (c.shelf.add r).1 (c'.shelf.add r).1 :=
    ⟨r, c.shelf.has_add r, c'.shelf.has_add r⟩
  exact
    { stores := h.stores.grows grows grows'
      held := List.rel_append (h.held.imp fun _ _ old => old.grows grows grows') (.cons twin .nil)
      now := h.now }

theorem store (h : c.Alike c') (key : CacheKey) (number : Nat) :
    (c.step (.store key number)).1 = (c'.step (.store key number)).1 ∧
      (c.step (.store key number)).2.Alike (c'.step (.store key number)).2 := by
  obtain ⟨backend, shelf, now, held⟩ := c
  obtain ⟨backend', shelf', now', held'⟩ := c'
  obtain rfl : now = now' := h.now
  have chosen := getElem?_of_forall₂ h.held number
  simp only [Client.step]
  simp only at chosen
  generalize held[number]? = found at *
  generalize held'[number]? = found' at *
  cases chosen with
  | none => exact ⟨rfl, h⟩
  | @some s s' twin =>
    have grows := Backend.grows_store now key s shelf backend
    have grows' := Backend.grows_store now key s' shelf' backend'
    refine ⟨rfl, h.stores.store now key twin, ?_, rfl⟩
    exact h.held.imp fun _ _ old => old.grows grows grows'

theorem load (h : c.Alike c') (key : CacheKey) :
    (c.step (.load key)).1 = (c'.step (.load key)).1 ∧
      (c.step (.load key)).2.Alike (c'.step (.load key)).2 := by
  obtain ⟨backend, shelf, now, held⟩ := c
  obtain ⟨backend', shelf', now', held'⟩ := c'
  obtain rfl : now = now' := h.now
  have grows := Backend.grows_load now key shelf backend
  have grows' := Backend.grows_load now key shelf' backend'
  obtain ⟨found, stores⟩ := h.stores.load now key
  have old := h.held.imp fun _ _ old => old.grows grows grows'
  simp only [Client.step]
  generalize backend.load now key shelf = loaded at *
  generalize backend'.load now key shelf' = loaded' at *
  obtain ⟨hit, after⟩ := loaded
  obtain ⟨hit', after'⟩ := loaded'
  cases found with
  | none => exact ⟨rfl, stores, List.rel_append old .nil, rfl⟩
  | some twin =>
    exact ⟨congrArg (Answer.found ∘ some) twin.read, stores,
      List.rel_append old (.cons twin .nil), rfl⟩

/-- **Each act is answered alike, and leaves the clients alike.** -/
theorem step (h : c.Alike c') (act : Act) :
    (c.step act).1 = (c'.step act).1 ∧ (c.step act).2.Alike (c'.step act).2 := by
  obtain ⟨backend, shelf, now, held⟩ := c
  obtain ⟨backend', shelf', now', held'⟩ := c'
  obtain rfl : now = now' := h.now
  cases act with
  | make r => exact ⟨rfl, h.make r⟩
  | store key number => exact h.store key number
  | load key => exact h.load key
  | delete key => exact ⟨rfl, h.withBackend (h.stores.each fun _ _ twins => twins.delete key)⟩
  | deleteGroup name =>
    exact ⟨rfl, h.withBackend (h.stores.each fun _ _ twins => twins.deleteGroup now name)⟩
  | start =>
    obtain ⟨same, started⟩ := h.stores.start now
    exact ⟨congrArg Answer.begun same, h.withBackend started⟩
  | stop => exact ⟨rfl, h.withBackend (h.stores.stop now)⟩
  | startWorker number =>
    obtain ⟨same, started⟩ := h.stores.startWorker number
    exact ⟨congrArg Answer.begun same, h.withBackend started⟩
  | task number task =>
    exact ⟨rfl, h.withBackend (h.stores.update number fun _ _ twins => task.perform_twins twins)⟩
  | tick date => exact ⟨rfl, { h with now := rfl }⟩

theorem run (h : c.Alike c') (acts : List Act) : (c.run acts).Alike (c'.run acts) := by
  unfold Client.run
  induction acts generalizing c c' with
  | nil => exact h
  | cons act rest ih => exact ih (h.step act).2

theorem answers (h : c.Alike c') (acts : List Act) : c.answers acts = c'.answers acts := by
  induction acts generalizing c c' with
  | nil => rfl
  | cons act rest ih =>
    obtain ⟨same, after⟩ := h.step act
    rw [Client.answers, Client.answers, same, ih after]

end Alike

/-- **Nesting does not matter.** Take any tree of stores, whatever they hold, and the single list of
tiers with the same stores from left to right. Let two clients do the same with them: store what
they made or were given, load, delete keys and groups, start and stop the workers together or one by
one; and let the same happen to the stores meanwhile: looks at groups, sweeps, evictions, waits for
writers, and the passing of time. Then all loads and starts are answered alike, nothing that can be
seen of any store differs, and the same workers are listed in the same order. -/
theorem nesting_irrelevant {b : Backend} {shelf : Shelf} (placed : b.All (Leaf.Stands shelf))
    (now : Instant) (acts : List Act) :
    (ofBackend b.flat shelf now).answers acts = (ofBackend b shelf now).answers acts ∧
      ((ofBackend b.flat shelf now).run acts).inventories =
        ((ofBackend b shelf now).run acts).inventories ∧
      ((ofBackend b.flat shelf now).run acts).startables =
        ((ofBackend b shelf now).run acts).startables := by
  have alike : (ofBackend b.flat shelf now).Alike (ofBackend b shelf now) :=
    { stores := by
        show List.Forall₂ _ b.flat.leaves b.leaves
        rw [Backend.leaves_flat]
        exact List.forall₂_same.2 fun l hl => .refl (placed l hl)
      held := .nil
      now := rfl }
  exact ⟨alike.answers acts, (alike.run acts).inventories, (alike.run acts).startables⟩

/-- Three stores in nested tiers, one of which is empty. The slowest store has a page. -/
def filledBehind : Backend :=
  .tiered [.tiered [],
    .tiered [.leaf (.bounded (.empty ⟨1000, 2⟩ (.ofSeconds 10))),
      .leaf (.map (.empty (.ofSeconds 20)))],
    .leaf (.map ((MapStore.empty (.ofSeconds 30)).store (.ofSeconds 0) ⟨"page", "", "", ""⟩
      ⟨⟨["news"], [], .ofSeconds 60⟩, 0⟩))]

/-- The page is loaded, and the writer of the bounded store applies what it got. -/
def loadAndWait : List Act :=
  [.startWorker 0, .load ⟨"page", "", "", ""⟩, .task 0 .wait]

/-- The page from the slowest store is promoted to each of the others once, nested or not. -/
theorem nesting_irrelevant_filledBehind :
    filledBehind.All (Leaf.Stands ⟨#[.empty], []⟩) ∧
    ((ofBackend filledBehind.flat ⟨#[.empty], []⟩ (.ofSeconds 1)).answers loadAndWait =
        (ofBackend filledBehind ⟨#[.empty], []⟩ (.ofSeconds 1)).answers loadAndWait ∧
      ((ofBackend filledBehind.flat ⟨#[.empty], []⟩ (.ofSeconds 1)).run loadAndWait).inventories =
        ((ofBackend filledBehind ⟨#[.empty], []⟩ (.ofSeconds 1)).run loadAndWait).inventories ∧
      ((ofBackend filledBehind.flat ⟨#[.empty], []⟩ (.ofSeconds 1)).run loadAndWait).startables =
        ((ofBackend filledBehind ⟨#[.empty], []⟩ (.ofSeconds 1)).run loadAndWait).startables) ∧
    ((ofBackend filledBehind ⟨#[.empty], []⟩ (.ofSeconds 1)).run loadAndWait).inventories.map
        (·.entries.length) = [1, 1, 1] ∧
    ((ofBackend filledBehind ⟨#[.empty], []⟩ (.ofSeconds 1)).run loadAndWait).startables =
      [("0", "bounded-writer"), ("1", "map-pruner"), ("2", "map-pruner")] := by
  have placed : filledBehind.All (Leaf.Stands ⟨#[.empty], []⟩) := by
    simp only [filledBehind, Backend.all_tiered, Backend.allOf_cons, Backend.all_leaf]
    refine ⟨Backend.allOf_nil, ⟨⟨List.forall_mem_nil _, List.forall_mem_nil _⟩,
      List.forall_mem_nil _, Backend.allOf_nil⟩, ?_, Backend.allOf_nil⟩
    exact List.forall_mem_singleton.2 Nat.one_pos
  exact ⟨placed, nesting_irrelevant placed _ loadAndWait, by decide +kernel, by decide +kernel⟩

end Client
end VariantCache
