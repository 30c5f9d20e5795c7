import VariantCache.Proofs.Backend.Use
import VariantCache.Proofs.Backend.View

/-!
# Sites that cannot be told apart

Clients ask of a tree of map stores as a whole: they store representations that they hold
from the start, load, and delete keys and groups. Meanwhile the stores do their chores and
the clock goes on. Two such sites cannot be told apart when they have alike stacks of
every key (`Alike`): each request has the same effect on alike stacks (`Alike.step`), and
is answered from the top of them (`Alike.answer`). A load and a chore on one of the sites
only go unnoticed (`Alike.load_left`, `Alike.chore_left`).
-/

namespace VariantCache

open Store Store.Edition

/-- What clients ask of the whole backend, chores of any part of it, and the passing of time. Every
representation that is stored was on the shelf at the start. -/
inductive Action.AtRoot (base : Shelf) : Action → Prop where
  | store (key : CacheKey) {s : Shared} (held : s.place < base.bodies.size) :
      AtRoot base (.perform [] (.store key s))
  | load (key : CacheKey) : AtRoot base (.perform [] (.load key))
  | delete (key : CacheKey) : AtRoot base (.perform [] (.delete key))
  | deleteGroup (name : String) : AtRoot base (.perform [] (.deleteGroup name))
  | chore (path : List Nat) (c : Chore) : AtRoot base (.perform path (.chore c))
  | tick (date : Instant) : AtRoot base (.tick date)

/-! ### Chores -/

namespace Backend

variable {now : Instant} {k : CacheKey} {shelf : Shelf} {b : Backend}

theorem view_each_of_chore {f : Leaf → Leaf} (chores : ∀ l, Leaf.Chore shelf now l (f l))
    (maps : b.All Leaf.IsMap) : (b.each f).view now shelf k = b.view now shelf k := by
  rw [view_each (g := id) fun l hl => (chores l).edition?_eq (maps l hl), List.map_id]

/-- The second tree has map stores too, and they have the same of a key. -/
structure KeepsView (now : Instant) (shelf : Shelf) (k : CacheKey) (b after : Backend) : Prop where
  maps : after.All Leaf.IsMap
  view : after.view now shelf k = b.view now shelf k

theorem KeepsView.startWorker {after : Backend} (h : b.KeepsView now shelf k after) (number : Nat) :
    b.KeepsView now shelf k (after.startWorker number).2 where
  maps := h.maps.startWorker fun _ _ (chore : Leaf.Chore shelf now _ _) hl =>
    hl.upkeep (.chore chore)
  view := by
    rw [← h.view]
    unfold Backend.startWorker
    split
    · rfl
    · next l hl =>
      refine view_mapLeaves fun other l' hl' => ?_
      simp only [Nat.zero_add]
      split
      · next same =>
        obtain rfl : l' = l := Option.some.inj (hl'.symm.trans (same ▸ hl))
        exact (Leaf.chore_startWorker shelf now l').edition?_eq
          (h.maps l' (List.mem_of_getElem? hl))
      · rfl

theorem KeepsView.stopWorker {after : Backend} (h : b.KeepsView now shelf k after) (number : Nat) :
    b.KeepsView now shelf k (after.update number (·.stopWorker shelf now)) where
  maps := h.maps.stopWorker fun _ _ chore hl => hl.upkeep (.chore chore)
  view := by
    rw [← h.view]
    refine view_mapLeaves fun other l hl => ?_
    split
    · exact (Leaf.chore_stopWorker shelf now l).edition?_eq (h.maps l (List.mem_of_getElem? hl))
    · rfl

/-- **Chores of map stores go unnoticed.** -/
theorem view_chore (maps : b.All Leaf.IsMap) (c : Chore) :
    (c.perform now shelf b).view now shelf k = b.view now shelf k := by
  have starts : ∀ w ∈ b.lifecycle shelf now, ∀ after, b.KeepsView now shelf k after →
      b.KeepsView now shelf k (w.start after).2 := by
    intro w hw after h
    obtain ⟨number, -, rfl⟩ := List.mem_map.1 hw
    exact h.startWorker number
  have stops : ∀ w ∈ b.lifecycle shelf now, ∀ after, b.KeepsView now shelf k after →
      b.KeepsView now shelf k (w.stop after) := by
    intro w hw after h
    obtain ⟨number, -, rfl⟩ := List.mem_map.1 hw
    exact h.stopWorker number
  cases c with
  | look name => exact view_each_of_chore (.look name) maps
  | sweep => exact view_each_of_chore .sweep maps
  | evict keep => exact view_each_of_chore (.evict keep) maps
  | start => exact (Lifecycle.start_keeps starts stops ⟨maps, rfl⟩).view
  | stop => exact (Lifecycle.stop_keeps stops ⟨maps, rfl⟩).view
  | wait => exact view_each_of_chore (Leaf.chore_wait shelf now) maps
  | run => exact view_each_of_chore (Leaf.chore_runUntil shelf now) maps

theorem grows_perform (op : Operation) : shelf.Grows (op.perform now shelf b).1 := by
  cases op with
  | store key s => exact grows_store now key s shelf b
  | load key => exact grows_load now key shelf b
  | delete | deleteGroup | chore => exact shelf.grows_refl

end Backend

namespace Site

/-! ### What each action does to the stacks -/

/-- The editions that the stores have of a key, from left to right. -/
def view (site : Site) (k : CacheKey) : Stack := site.backend.view site.now site.shelf k

/-- All stores are map stores and have their bodies on the shelf, and so has what clients hold from
the start. -/
structure IsPlaced (base : Shelf) (site : Site) : Prop where
  maps : site.backend.All (Leaf.IsPlacedMap site.now site.shelf)
  grows : base.Grows site.shelf

variable {base : Shelf} {site a b : Site} {key k : CacheKey} {s : Shared}

theorem step_root (site : Site) (op : Operation) :
    site.step (.perform [] op) =
      { site with
        backend := (op.perform site.now site.shelf site.backend).2
        shelf := (op.perform site.now site.shelf site.backend).1 } := by
  simp only [step, perform, Backend.zoom]

/-- A chore of a part leaves the shelf and the clock alone. -/
theorem step_chore (site : Site) (path : List Nat) (c : Chore) :
    site.step (.perform path (.chore c)) = site ∨ ∃ after,
      site.backend.zoom (fun b => (site.shelf, c.perform site.now site.shelf b)) path =
          some (site.shelf, after) ∧
        site.step (.perform path (.chore c)) = { site with backend := after } := by
  simp only [step, perform, Operation.perform]
  cases hz : site.backend.zoom (fun b => (site.shelf, c.perform site.now site.shelf b)) path with
  | none => exact .inl rfl
  | some result =>
    obtain ⟨shelf, after⟩ := result
    have same := Backend.zoom_fst (fun b => (site.shelf, c.perform site.now site.shelf b)) path
      site.backend
    rw [hz, Option.map_some, eq_comm, Option.map_eq_some_iff] at same
    obtain ⟨-, -, rfl⟩ := same
    exact .inr ⟨after, rfl, rfl⟩

theorem IsPlaced.step_root (h : site.IsPlaced base) {op : Operation}
    (held : ∀ key s, op = .store key s → s.place < site.shelf.bodies.size) :
    (site.step (.perform [] op)).IsPlaced base := by
  rw [Site.step_root]
  exact ⟨(Backend.maintained_isPlacedMap site.now).all_perform op h.maps held,
    h.grows.trans (Backend.grows_perform op)⟩

theorem IsPlaced.step_chore (h : site.IsPlaced base) (path : List Nat) (c : Chore) :
    (site.step (.perform path (.chore c))).IsPlaced base ∧
      ∀ k, (site.step (.perform path (.chore c))).view k = site.view k := by
  have keeps : ∀ l done, Leaf.Chore site.shelf site.now l done →
      l.IsPlacedMap site.now site.shelf → done.IsPlacedMap site.now site.shelf :=
    fun l done chore => (Backend.maintained_isPlacedMap site.now).upkeep (.chore chore)
  rcases Site.step_chore site path c with same | ⟨after, hz, same⟩
  · rw [same]
    exact ⟨h, fun _ => rfl⟩
  · rw [same]
    refine ⟨⟨Backend.all_zoom (fun _ => id) (fun part hp => hp.chore keeps c) h.maps hz, h.grows⟩,
      fun k => ?_⟩
    exact Backend.view_zoom (fun part hp => Backend.view_chore (hp.imp fun _ => (·.isMap)) c)
      h.maps hz

theorem IsPlaced.tick (h : site.IsPlaced base) (date : Instant) :
    (site.step (.tick date)).IsPlaced base where
  maps := h.maps.imp fun _ hl =>
    ⟨hl.isMap, fun k t held => hl.placed k t (held.of_le (site.now.le_later date))⟩
  grows := h.grows

theorem IsPlaced.load (h : site.IsPlaced base) (key : CacheKey) :
    (site.step (.perform [] (.load key))).IsPlaced base ∧
      ∀ k, (site.step (.perform [] (.load key))).view k = Backend.loaded key k (site.view k) := by
  refine ⟨h.step_root (fun _ _ he => nomatch he), fun k => ?_⟩
  rw [Site.step_root]
  exact (Backend.view_load site.shelf site.backend h.maps).after k

theorem answer_load (h : site.IsPlaced base) (key : CacheKey) :
    site.answer (.perform [] (.load key)) = (site.view key).top? := by
  simp only [answer, load?, Backend.part?, Option.map_some, Option.bind_some]
  exact (Backend.view_load site.shelf site.backend h.maps).found

/-! ### Alike sites -/

/-- Two sites show clients the same: of every key they have alike stacks. -/
structure Alike (base : Shelf) (a b : Site) : Prop where
  now : a.now = b.now
  left : a.IsPlaced base
  right : b.IsPlaced base
  view : ∀ k, (a.view k).Alike (b.view k)

theorem IsPlaced.alike (h : site.IsPlaced base) : Alike base site site :=
  ⟨rfl, h, h, fun _ => .refl _⟩

theorem Alike.symm (h : Alike base a b) : Alike base b a :=
  ⟨h.now.symm, h.right, h.left, fun k => (h.view k).symm⟩

/-- An operation on both sites keeps them alike if it keeps the stacks so. -/
theorem Alike.step_root (h : Alike base a b) {op : Operation}
    (held : ∀ key s, op = .store key s → s.place < base.bodies.size)
    (view : ∀ k, ((a.step (.perform [] op)).view k).Alike ((b.step (.perform [] op)).view k)) :
    Alike base (a.step (.perform [] op)) (b.step (.perform [] op)) where
  now := by rw [Site.step_root, Site.step_root]; exact h.now
  left := h.left.step_root fun key s stored => h.left.grows.place_lt (held key s stored)
  right := h.right.step_root fun key s stored => h.right.grows.place_lt (held key s stored)
  view := view

/-- A load of one of the sites goes unnoticed. -/
theorem Alike.load_left (h : Alike base a b) (key : CacheKey) :
    Alike base (a.step (.perform [] (.load key))) b := by
  obtain ⟨placed, view⟩ := h.left.load key
  refine ⟨?_, placed, h.right, fun k => ?_⟩
  · rw [Site.step_root]
    exact h.now
  · rw [view, Backend.loaded]
    split
    · exact .trans (Stack.promote_alike fun _ he => (Backend.of_mem_view he).2) (h.view k)
    · exact h.view k

/-- A chore on one of the sites goes unnoticed. -/
theorem Alike.chore_left (h : Alike base a b) (path : List Nat) (c : Chore) :
    Alike base (a.step (.perform path (.chore c))) b := by
  obtain ⟨placed, view⟩ := h.left.step_chore path c
  refine ⟨?_, placed, h.right, fun k => ?_⟩
  · rcases Site.step_chore a path c with same | ⟨after, -, same⟩ <;> rw [same] <;> exact h.now
  · rw [view]
    exact h.view k

/-- What clients hold is the same representation on both sites. -/
theorem Alike.store (h : Alike base a b) (key : CacheKey) (held : s.place < base.bodies.size) :
    Alike base (a.step (.perform [] (.store key s))) (b.step (.perform [] (.store key s))) := by
  have stored {site : Site} (placed : site.IsPlaced base) (k : CacheKey) :
      (site.step (.perform [] (.store key s))).view k =
        (site.view k).map (Backend.replaced site.now key (base.read s) k) := by
    rw [Site.step_root, ← placed.grows.read held]
    exact Backend.view_store s site.shelf site.backend placed.maps (placed.grows.place_lt held)
  refine h.step_root (fun _ _ he => by cases he; exact held) fun k => ?_
  rw [stored h.left, stored h.right, h.now]
  unfold Backend.replaced
  by_cases same : k = key
  · simp only [if_pos same]
    exact Stack.alike_map_const (h.view k).nil_iff _
  · simpa only [if_neg same, List.map_id'] using h.view k

theorem Alike.delete (h : Alike base a b) (key : CacheKey) :
    Alike base (a.step (.perform [] (.delete key))) (b.step (.perform [] (.delete key))) := by
  have deleted {site : Site} (placed : site.IsPlaced base) (k : CacheKey) :
      (site.step (.perform [] (.delete key))).view k =
        (site.view k).map fun place => if k = key then none else place := by
    rw [Site.step_root]
    exact Backend.view_each fun l hl => Leaf.edition?_delete (placed.maps l hl).isMap
  refine h.step_root (fun _ _ he => nomatch he) fun k => ?_
  rw [deleted h.left, deleted h.right]
  by_cases same : k = key
  · simp only [if_pos same]
    exact Stack.alike_map_const (h.view k).nil_iff none
  · simpa only [if_neg same, List.map_id'] using h.view k

theorem Alike.deleteGroup (h : Alike base a b) (name : String) :
    Alike base (a.step (.perform [] (.deleteGroup name)))
      (b.step (.perform [] (.deleteGroup name))) := by
  have deleted {site : Site} (placed : site.IsPlaced base) (k : CacheKey) :
      (site.step (.perform [] (.deleteGroup name))).view k =
        (site.view k).map (·.filter fun e => name ∉ e.listed) := by
    rw [Site.step_root]
    exact Backend.view_each fun l hl => Leaf.edition?_deleteGroup (placed.maps l hl).isMap
  refine h.step_root (fun _ _ he => nomatch he) fun k => ?_
  rw [deleted h.left, deleted h.right]
  refine (h.view k).filter fun e next repeated kept => ?_
  simp only [decide_eq_true_eq] at kept ⊢
  exact fun listed => kept (repeated.listed listed)

theorem Alike.tick (h : Alike base a b) (date : Instant) :
    Alike base (a.step (.tick date)) (b.step (.tick date)) := by
  have later {site : Site} (placed : site.IsPlaced base) (k : CacheKey) :
      (site.step (.tick date)).view k = (site.view k).map (·.filter fun e =>
        site.now.later date ≤ e.representation.details.expiration) := by
    rw [Site.view, Backend.view, Site.view, Backend.view, List.map_map]
    exact List.map_congr_left fun l hl =>
      Leaf.edition?_later (placed.maps l hl).isMap (site.now.le_later date)
  refine ⟨congrArg (·.later date) h.now, h.left.tick date, h.right.tick date, fun k => ?_⟩
  rw [later h.left, later h.right, h.now]
  refine (h.view k).filter fun e next repeated kept => ?_
  rw [← repeated.same]
  exact kept

/-- **Whatever is asked of alike sites, they stay alike.** -/
theorem Alike.step (h : Alike base a b) {action : Action} (asked : action.AtRoot base) :
    Alike base (a.step action) (b.step action) := by
  cases asked with
  | store key held => exact h.store key held
  | load key => exact ((h.load_left key).symm.load_left key).symm
  | delete key => exact h.delete key
  | deleteGroup name => exact h.deleteGroup name
  | chore path c => exact ((h.chore_left path c).symm.chore_left path c).symm
  | tick date => exact h.tick date

/-- **Alike sites give the same answers.** -/
theorem Alike.answer (h : Alike base a b) {action : Action} (asked : action.AtRoot base) :
    a.answer action = b.answer action := by
  cases asked with
  | load key => rw [answer_load h.left, answer_load h.right, (h.view key).top?]
  | store | delete | deleteGroup | chore | tick => rfl

end Site
end VariantCache
