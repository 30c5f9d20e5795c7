import VariantCache.Proofs.Backend.Operations

/-!
# Backends in use

A site is a backend in use: the tree, the shelf with the bodies of all representations,
and the clock. Clients act on the whole tree or on a part of it, put representations on
the shelf and ask for bodies; the workers are started, stopped and left to run; bounded
stores give up entries as they please; and the clock goes on, never back.

A property of single stores that a tree maintains holds of every store of a site,
whatever is done (`all_run`).
-/

namespace VariantCache

open Store

/-! ### Operations -/

/-- What the stores of a tree do for themselves, and their workers. -/
inductive Chore where
  /-- Looks at a group. -/
  | look (name : String)
  | sweep
  /-- Bounded stores give up entries for want of room. -/
  | evict (keep : CacheKey → Held → Bool)
  | start
  | stop
  | wait
  /-- Lets the active workers run. -/
  | run

/-- The tree after a chore. -/
def Chore.perform (now : Instant) (shelf : Shelf) (b : Backend) : Chore → Backend
  | look name => b.each (·.look now name)
  | sweep => b.each (·.sweep now)
  | evict keep => b.each (·.evict keep)
  | start => (b.start shelf now).2
  | stop => b.stop shelf now
  | wait => b.wait shelf now
  | run => b.runUntil shelf now

/-- What can be done with a tree of stores. -/
inductive Operation where
  | store (key : CacheKey) (s : Shared)
  | load (key : CacheKey)
  | delete (key : CacheKey)
  | deleteGroup (name : String)
  | chore (chore : Chore)

namespace Operation

/-- The shelf and the tree after an operation. -/
def perform (now : Instant) (shelf : Shelf) (b : Backend) : Operation → Shelf × Backend
  | store key s => b.store now key s shelf
  | load key => (b.load now key shelf).2
  | delete key => (shelf, b.delete key)
  | deleteGroup name => (shelf, b.deleteGroup now name)
  | chore c => (shelf, c.perform now shelf b)

/-- The operation stores something. -/
def isStore : Operation → Bool
  | store _ _ => true
  | load _ | delete _ | deleteGroup _ | chore _ => false

end Operation

namespace Backend

variable {now : Instant} {P : Leaf → Prop} {shelf : Shelf} {b : Backend}

theorem All.startWorker {number : Nat} (h : b.All P)
    (keeps : ∀ l done, Leaf.Chore shelf now l done → P l → P done) :
    (b.startWorker number).2.All P := by
  unfold Backend.startWorker
  split
  · exact h
  · next l hl =>
    have started : P l.startWorker.2 :=
      keeps l _ (Leaf.chore_startWorker shelf now l) (h l (List.mem_of_getElem? hl))
    exact h.update fun _ _ => started

theorem All.stopWorker {number : Nat} (h : b.All P)
    (keeps : ∀ l done, Leaf.Chore shelf now l done → P l → P done) :
    (b.update number (·.stopWorker shelf now)).All P :=
  h.update fun l => keeps l _ (Leaf.chore_stopWorker shelf now l)

theorem All.start (h : b.All P) (keeps : ∀ l done, Leaf.Chore shelf now l done → P l → P done) :
    (b.start shelf now).2.All P := by
  refine Lifecycle.start_keeps (P := All P) (fun w hw state hs => ?_) (fun w hw state hs => ?_) h
  · obtain ⟨number, -, rfl⟩ := List.mem_map.1 hw
    exact hs.startWorker keeps
  · obtain ⟨number, -, rfl⟩ := List.mem_map.1 hw
    exact hs.stopWorker keeps

theorem All.stop (h : b.All P) (keeps : ∀ l done, Leaf.Chore shelf now l done → P l → P done) :
    (b.stop shelf now).All P := by
  refine Lifecycle.stop_keeps (P := All P) (fun w hw state hs => ?_) h
  obtain ⟨number, -, rfl⟩ := List.mem_map.1 hw
  exact hs.stopWorker keeps

/-- What single stores keep in their chores, a tree keeps. -/
theorem All.chore (h : b.All P) (keeps : ∀ l done, Leaf.Chore shelf now l done → P l → P done)
    (c : Chore) :
    (c.perform now shelf b).All P := by
  cases c with
  | look name => exact h.each fun l => keeps l _ (.look name l)
  | sweep => exact h.each fun l => keeps l _ (.sweep l)
  | evict keep => exact h.each fun l => keeps l _ (.evict keep l)
  | start => exact h.start keeps
  | stop => exact h.stop keeps
  | wait => exact h.each fun l => keeps l _ (Leaf.chore_wait shelf now l)
  | run => exact h.each fun l => keeps l _ (Leaf.chore_runUntil shelf now l)

/-- **A tree maintains what its stores maintain**, whatever is done with it. -/
theorem Maintained.all_perform {Q : Shelf → Leaf → Prop} {V : Shelf → CacheKey → Shared → Prop}
    (m : Maintained now Q V) (op : Operation) (h : b.All (Q shelf))
    (stored : ∀ key s, op = .store key s → V shelf key s) :
    (op.perform now shelf b).2.All (Q (op.perform now shelf b).1) := by
  cases op with
  | store key s => exact m.all_store s shelf b h (stored key s rfl)
  | load key => exact (m.all_load shelf b h).1
  | delete key => exact h.each fun l => m.upkeep (.delete key l)
  | deleteGroup name => exact h.each fun l => m.upkeep (.deleteGroup name l)
  | chore c => exact h.chore (fun _ _ chore => m.upkeep (.chore chore)) c

end Backend

/-! ### Sites -/

/-- A backend in use. -/
structure Site where
  backend : Backend
  shelf : Shelf
  now : Instant

/-- One step of the use of a backend. -/
inductive Action where
  /-- An operation on the part of the tree at a path, if there is one. -/
  | perform (path : List Nat) (op : Operation)
  /-- The clock is set, but never back. -/
  | tick (date : Instant)
  /-- A client puts a representation on the shelf. -/
  | add (r : Representation)
  /-- A client puts in the body of a representation. -/
  | insertBody (s : Shared) (coding : Coding) (body : Bytes)
  /-- A client asks for a body. -/
  | fetch (s : Shared) (coding : Coding)

/-- The action stores something. -/
def Action.isStore : Action → Bool
  | perform _ op => op.isStore
  | _ => false

namespace Site

/-- The site after an operation on a part of the tree. -/
def perform (site : Site) (path : List Nat) (op : Operation) : Site :=
  match site.backend.zoom (fun b => op.perform site.now site.shelf b) path with
  | none => site
  | some (shelf, backend) => { site with shelf, backend }

/-- The site after an action. -/
def step (site : Site) : Action → Site
  | .perform path op => site.perform path op
  | .tick date => { site with now := site.now.later date }
  | .add r => { site with shelf := (site.shelf.add r).2 }
  | .insertBody s coding body => { site with shelf := site.shelf.insertBody s coding body }
  | .fetch s coding => { site with shelf := (site.shelf.fetch s coding).2 }

/-- The site after some actions. -/
def run (site : Site) (actions : List Action) : Site := actions.foldl step site

/-- What a load of a key from the part at a path gives, with the shelf after it; nothing when there
is no such part. -/
def load? (site : Site) (path : List Nat) (key : CacheKey) : Option (Option Shared × Shelf) :=
  (site.backend.part? path).map fun part =>
    let (found, shelf, _) := part.load site.now key site.shelf
    (found, shelf)

/-- The answer to an action: a load gives a representation with its bodies, or nothing, as
everything else does. -/
def answer (site : Site) : Action → Option Representation
  | .perform path (.load key) =>
    (site.load? path key).bind fun (found, shelf) => found.map shelf.read
  | .perform _ (.store _ _) | .perform _ (.delete _) | .perform _ (.deleteGroup _)
  | .perform _ (.chore _) | .tick _ | .add _ | .insertBody _ _ _ | .fetch _ _ => none

/-- The answers to some actions, one after the other. -/
def answers (site : Site) : List Action → List (Option Representation)
  | [] => []
  | action :: rest => site.answer action :: (site.step action).answers rest

theorem answers_append (site : Site) (first second : List Action) :
    site.answers (first ++ second) = site.answers first ++ (site.run first).answers second := by
  induction first generalizing site with
  | nil => rfl
  | cons action first ih => exact congrArg (site.answer action :: ·) (ih _)

/-- Nothing was stored yet. -/
def IsNew (site : Site) : Prop := site.backend.All Leaf.IsNew

variable {P : Instant → Leaf → Prop} {V : CacheKey → Shared → Prop}

/-- What every store has before an action, every store has after it. -/
theorem all_step (m : ∀ now, Backend.Maintained now (fun _ => P now) (fun _ => V))
    (later : ∀ {now later : Instant} {l : Leaf}, now ≤ later → P now l → P later l)
    {site : Site} {action : Action} (h : site.backend.All (P site.now))
    (stored : ∀ path key s, action = .perform path (.store key s) → V key s) :
    (site.step action).backend.All (P (site.step action).now) := by
  cases action with
  | perform path op =>
    show (site.perform path op).backend.All (P (site.perform path op).now)
    unfold perform
    split
    · exact h
    · next hz =>
      refine Backend.all_zoom (fun _ => id) (fun part hp => ?_) h hz
      exact (m site.now).all_perform op hp fun key s he => stored path key s (he ▸ rfl)
  | tick date => exact h.imp fun l => later (site.now.le_later date)
  | add | insertBody | fetch => exact h

/-- **What every store has at first, every store has after any run.** -/
theorem all_run (m : ∀ now, Backend.Maintained now (fun _ => P now) (fun _ => V))
    (later : ∀ {now later : Instant} {l : Leaf}, now ≤ later → P now l → P later l)
    {site : Site} {actions : List Action} (h : site.backend.All (P site.now))
    (stored : ∀ path key s, .perform path (.store key s) ∈ actions → V key s) :
    (site.run actions).backend.All (P (site.run actions).now) := by
  unfold run
  induction actions generalizing site with
  | nil => exact h
  | cons action actions ih =>
    refine ih (all_step m later h ?_) fun path key s hm =>
      stored path key s (List.mem_cons_of_mem _ hm)
    rintro path key s rfl
    exact stored path key s List.mem_cons_self

end Site
end VariantCache
