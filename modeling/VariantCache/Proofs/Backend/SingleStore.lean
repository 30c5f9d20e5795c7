import VariantCache.Proofs.Backend.Use

/-!
# Sites with a single store

A single store stays one whatever is done (`Site.backend_step`), and each operation is
that of the store itself (`Operation.perform_leaf`). There are no parts but the whole.
-/

namespace VariantCache

open Store

/-- A single store after an operation. -/
def Store.Leaf.perform (now : Instant) (shelf : Shelf) (l : Leaf) : Operation → Leaf
  | .store key s => l.store now key s
  | .load key => (l.load now key).2
  | .delete key => l.delete key
  | .deleteGroup name => l.deleteGroup now name
  | .chore (.look name) => l.look now name
  | .chore .sweep => l.sweep now
  | .chore (.evict keep) => l.evict keep
  | .chore .start => l.startWorker.2
  | .chore .stop => l.stopWorker shelf now
  | .chore .wait => l.wait shelf now
  | .chore .run => l.runUntil shelf now

namespace Backend

variable {now : Instant} {shelf : Shelf}

theorem startWorker_leaf (l : Leaf) :
    (leaf l).startWorker 0 = (l.startWorker.1, leaf l.startWorker.2) := rfl

/-- A worker that refuses to start leaves none to be stopped. -/
theorem start_leaf (l : Leaf) : ((leaf l).start shelf now).2 = leaf l.startWorker.2 := by
  have started := startWorker_leaf l
  show (Lifecycle.startAfter [] [_] (leaf l)).2 = _
  unfold Lifecycle.startAfter
  simp only [started]
  split
  · next h => rw [← (Prod.mk.inj h).2]; rfl
  · next h => rw [← (Prod.mk.inj h).2]; rfl

end Backend

/-- An operation on a single store is that of the store. -/
theorem Operation.perform_leaf (now : Instant) (shelf : Shelf) (l : Leaf) (op : Operation) :
    op.perform now shelf (.leaf l) = (shelf, .leaf (l.perform now shelf op)) := by
  cases op with
  | chore c =>
    cases c with
    | start => exact congrArg (Prod.mk shelf) (Backend.start_leaf l)
    | look | sweep | evict | stop | wait | run => rfl
  | store | load | delete | deleteGroup => rfl

/-- What a single store does for itself are chores of it. -/
theorem Store.Leaf.chore_perform (now : Instant) (shelf : Shelf) (l : Leaf)
    (c : VariantCache.Chore) : Leaf.Chore shelf now l (l.perform now shelf (.chore c)) := by
  cases c with
  | look name => exact .look name l
  | sweep => exact .sweep l
  | evict keep => exact .evict keep l
  | start => exact chore_startWorker shelf now l
  | stop => exact chore_stopWorker shelf now l
  | wait => exact chore_wait shelf now l
  | run => exact chore_runUntil shelf now l

/-- The tree is a single store after some chores. -/
def Backend.IsDone (shelf : Shelf) (now : Instant) (l : Leaf) (b : Backend) : Prop :=
  ∃ done, b = leaf done ∧ Leaf.Chore shelf now l done

/-- A single store stays one in its chores. -/
theorem Backend.isDone_perform (now : Instant) (shelf : Shelf) (l : Leaf) (c : Chore) :
    (c.perform now shelf (leaf l)).IsDone shelf now l := by
  have performed := Operation.perform_leaf now shelf l (.chore c)
  exact ⟨l.perform now shelf (.chore c), congrArg (·.2) performed, l.chore_perform now shelf c⟩

/-- The operation that is performed on the whole tree, if the action is one. -/
def Action.root? : Action → Option Operation
  | .perform [] op => some op
  | .perform (_ :: _) _ | .tick _ | .add _ | .insertBody _ _ _ | .fetch _ _ => none

namespace Site

variable {site : Site} {l : Leaf}

/-- The same site with a single store. -/
def withLeaf (site : Site) (l : Leaf) : Site := { site with backend := .leaf l }

/-- The clock and the shelf of a site after an action that is none of the backend. -/
def around (site : Site) : Action → Site
  | .perform _ _ => site
  | .tick date => site.step (.tick date)
  | .add r => site.step (.add r)
  | .insertBody s coding body => site.step (.insertBody s coding body)
  | .fetch s coding => site.step (.fetch s coding)

/-- The store of a site with a single one after an action. -/
def act (site : Site) (l : Leaf) (action : Action) : Leaf :=
  match action.root? with
  | some op => l.perform site.now site.shelf op
  | none => l

theorem eq_withLeaf (single : site.backend = .leaf l) : site = site.withLeaf l := by
  rw [withLeaf, ← single]

/-- **A single store stays one**, and leaves the clock and the shelf alone. -/
theorem step_withLeaf (site : Site) (l : Leaf) (action : Action) :
    (site.withLeaf l).step action = (site.around action).withLeaf (site.act l action) := by
  cases action with
  | perform path op =>
    cases path with
    | nil =>
      simp only [step, perform, Backend.zoom, withLeaf, Operation.perform_leaf]
      rfl
    | cons number path =>
      simp only [step, perform, Backend.zoom, withLeaf]
      rfl
  | tick | add | insertBody | fetch => rfl

theorem backend_step (single : site.backend = .leaf l) (action : Action) :
    (site.step action).backend = .leaf (site.act l action) := by
  rw [eq_withLeaf single, step_withLeaf]
  rfl

/-- Only loads of the store itself are answered. -/
theorem answer_withLeaf (site : Site) (l : Leaf) (action : Action) :
    (site.withLeaf l).answer action =
      match action.root? with
      | some (.load key) => (l.load site.now key).1.map site.shelf.read
      | _ => none := by
  cases action with
  | perform path op =>
    cases path with
    | nil =>
      cases op with
      | load key => simp [answer, load?, Backend.part?, withLeaf, Backend.load, Action.root?]
      | store | delete | deleteGroup | chore => rfl
    | cons number path =>
      cases op with
      | load key => simp [answer, load?, Backend.part?, withLeaf, Action.root?]
      | store | delete | deleteGroup | chore => rfl
  | tick | add | insertBody | fetch => rfl

end Site
end VariantCache
