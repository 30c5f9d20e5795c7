import VariantCache.Proofs.Backend.Use
import VariantCache.Proofs.Store.Grouping

/-!
# The deletion of a group on a tree of stores

Every store of a tree keeps an index that lists each version it could give
(`Site.indexed_run`), so the deletion of a group leaves no store with a version of the
group, unless one waits in a queue (`Site.noneOf_deleteGroup`). From then on no version
of the group is in the tree until a client stores one: the copies that loads make have
the groups of their originals (`Site.noneOf_run`). And the deletion changes nothing for
the keys that have no version in the group (`Site.load?_deleteGroup`).
-/

namespace VariantCache

open Store

namespace Store.Leaf

/-- No version that a store holds belongs to a group. -/
def NoneOf (name : String) (now : Instant) (l : Leaf) : Prop :=
  ∀ k t, l.Holds now k t → t.details.inGroup name = false

theorem Indexed.noneOf_deleteGroup {l : Leaf} {now : Instant} (h : l.Indexed now)
    (drained : l.queued = []) (name : String) : (l.deleteGroup now name).NoneOf name now := by
  rintro k t (ht | ht)
  · exact not_inGroup_of_deleteGroup h ht
  · rw [queued_deleteGroup, drained] at ht
    cases ht

end Store.Leaf

namespace Backend

theorem maintained_indexed (now : Instant) :
    Maintained now (fun _ => Leaf.Indexed now) (fun _ _ _ => True) where
  grows _ h := h
  version_grows _ h := h
  version_copy h := h
  upkeep keep h := h.upkeep keep
  store h _ := h.store
  found _ _ := trivial

theorem maintained_noneOf (name : String) (now : Instant) :
    Maintained now (fun _ => Leaf.NoneOf name now) (fun _ _ s => s.details.inGroup name = false) :=
  maintained_holds now (fun _ h => h) fun h => h

end Backend

namespace Site

/-- **In every run the index of every store lists what the store could give.** -/
theorem indexed_run {site : Site} (new : site.IsNew) (actions : List Action) :
    (site.run actions).backend.All (Leaf.Indexed (site.run actions).now) :=
  all_run Backend.maintained_indexed (fun le h => h.at_later le)
    (new.imp fun _ h => h.indexed site.now) fun _ _ _ _ => trivial

/-- The site after a group was deleted everywhere. -/
def deleteGroup (site : Site) (name : String) : Site := site.perform [] (.deleteGroup name)

theorem backend_deleteGroup (site : Site) (name : String) :
    (site.deleteGroup name).backend = site.backend.each (·.deleteGroup site.now name) := by
  simp only [deleteGroup, perform, Backend.zoom, Operation.perform, Backend.deleteGroup]

theorem now_deleteGroup (site : Site) (name : String) : (site.deleteGroup name).now = site.now := by
  simp only [deleteGroup, perform, Backend.zoom]

theorem shelf_deleteGroup (site : Site) (name : String) :
    (site.deleteGroup name).shelf = site.shelf := by
  simp only [deleteGroup, perform, Backend.zoom, Operation.perform]

/-- When nothing waits, no store holds a version of a group that was deleted. -/
theorem noneOf_deleteGroup {site : Site} (indexed : site.backend.All (Leaf.Indexed site.now))
    (drained : site.backend.All fun l => l.queued = []) (name : String) :
    (site.deleteGroup name).backend.All (Leaf.NoneOf name (site.deleteGroup name).now) := by
  rw [backend_deleteGroup, now_deleteGroup]
  have both : site.backend.All fun l => l.Indexed site.now ∧ l.queued = [] :=
    fun l hl => ⟨indexed l hl, drained l hl⟩
  exact both.each fun l h => h.1.noneOf_deleteGroup h.2 name

/-- Versions of a group come from clients only. -/
theorem noneOf_run {site : Site} {name : String} (h : site.backend.All (Leaf.NoneOf name site.now))
    {actions : List Action} (quiet : ∀ action ∈ actions, action.isStore = false) :
    (site.run actions).backend.All (Leaf.NoneOf name (site.run actions).now) := by
  refine all_run (V := fun _ s => s.details.inGroup name = false) (Backend.maintained_noneOf name)
    (fun le h k t ht => h k t (ht.of_le le)) h fun path key s hm => ?_
  have stores := quiet _ hm
  simp [Action.isStore, Operation.isStore] at stores

/-- What is not held anywhere is not loaded from any part. -/
theorem not_inGroup_of_load? {site : Site} {name : String}
    (h : site.backend.All (Leaf.NoneOf name site.now)) {path : List Nat} {key : CacheKey}
    {s : Shared} {shelf : Shelf} (load : site.load? path key = some (some s, shelf)) :
    s.details.inGroup name = false := by
  unfold load? at load
  obtain ⟨part, hp, he⟩ := Option.map_eq_some_iff.1 load
  have found : (part.load site.now key site.shelf).1 = some s := congrArg (·.1) he
  exact ((Backend.maintained_noneOf name site.now).all_load site.shelf part (h.part hp)).2 s found

/-- A key without a version in the group loads what it would have loaded. -/
theorem load?_deleteGroup {site : Site} {name : String} {key : CacheKey}
    (other : site.backend.All fun l => ∀ s, l.stored? key = some s → s.details.inGroup name = false)
    (path : List Nat) : (site.deleteGroup name).load? path key = site.load? path key := by
  unfold load?
  rw [backend_deleteGroup, now_deleteGroup, shelf_deleteGroup, Backend.part?_each, Option.map_map]
  cases hp : site.backend.part? path with
  | none => rfl
  | some part =>
    have same : part.All fun l =>
        ((l.deleteGroup site.now name).load site.now key).1 = (l.load site.now key).1 :=
      (other.part hp).imp fun _ => Leaf.load_deleteGroup
    obtain ⟨found, shelf⟩ := Backend.load_each site.shelf part same
    exact congrArg some (Prod.ext found shelf)

/-- **The deletion of a group is complete and precise.** When a tree of stores that started empty
is in any state where no store waits, the deletion of a group makes every later load, from the
whole tree or from any part, give no version of the group, whatever else is done without a store
by a client. And right after it every key without a version in the group loads what it would have
loaded, and leaves the same bodies on the shelf. -/
theorem deleteGroup_complete_and_precise {site : Site} (new : site.IsNew) (before : List Action)
    (drained : (site.run before).backend.All fun l => l.queued = []) (name : String) :
    (∀ after : List Action, (∀ action ∈ after, action.isStore = false) →
      ∀ (path : List Nat) (key : CacheKey) (s : Shared) (shelf : Shelf),
        (((site.run before).deleteGroup name).run after).load? path key = some (some s, shelf) →
          s.details.inGroup name = false) ∧
    ∀ (path : List Nat) (key : CacheKey),
      (∀ l ∈ (site.run before).backend.leaves, ∀ s, l.stored? key = some s →
        s.details.inGroup name = false) →
      ((site.run before).deleteGroup name).load? path key = (site.run before).load? path key := by
  refine ⟨fun after quiet path key s shelf load => ?_,
    fun path key other => load?_deleteGroup other path⟩
  have deleted := noneOf_deleteGroup (indexed_run new before) drained name
  exact not_inGroup_of_load? (noneOf_run deleted quiet) load

/-- Two tiers, a bounded store over a map. -/
def twoTiers : Site where
  backend := .tiered [.leaf (.bounded (.empty ⟨1000, 2⟩ (.ofSeconds 10))),
    .leaf (.map (.empty (.ofSeconds 10)))]
  shelf := .empty
  now := ⟨0, 0, Duration.zero.nanos_lt⟩

/-- Something in a group is stored, and the writer of the bounded store applies it. -/
def storeAndWait (name : String) (key : CacheKey) : List Action :=
  let details : Details := ⟨[name], [], ⟨60, 0, Duration.zero.nanos_lt⟩⟩
  [.add ⟨details, .empty⟩, .perform [] (.chore .start), .perform [] (.store key ⟨details, 0⟩),
    .perform [] (.chore .wait)]

/-- What was stored can be loaded, and is gone when its group was deleted, also when the load comes
after another one and a sweep, and the deletion of the group of something else leaves it. -/
theorem deleteGroup_twoTiers :
    ((twoTiers.run (storeAndWait "news" ⟨"a", "", "", ""⟩)).load? [] ⟨"a", "", "", ""⟩).isSome ∧
    (∀ (s : Shared) (shelf : Shelf),
      (((twoTiers.run (storeAndWait "news" ⟨"a", "", "", ""⟩)).deleteGroup "news").run
        [.perform [] (.load ⟨"a", "", "", ""⟩), .perform [0] (.chore .sweep)]).load? []
          ⟨"a", "", "", ""⟩ = some (some s, shelf) → s.details.inGroup "news" = false) ∧
    ((twoTiers.run (storeAndWait "news" ⟨"a", "", "", ""⟩)).deleteGroup "sport").load? []
        ⟨"a", "", "", ""⟩ =
      (twoTiers.run (storeAndWait "news" ⟨"a", "", "", ""⟩)).load? [] ⟨"a", "", "", ""⟩ := by
  have new : twoTiers.IsNew := by
    refine Backend.allOf_cons.2 ⟨Backend.all_leaf.2 ?_, Backend.allOf_cons.2
      ⟨Backend.all_leaf.2 ?_, Backend.allOf_nil⟩⟩
    · exact ⟨_, _, rfl⟩
    · exact ⟨_, rfl⟩
  have drained : (twoTiers.run (storeAndWait "news" ⟨"a", "", "", ""⟩)).backend.All fun l =>
      l.queued = [] := by
    unfold Backend.All
    decide +kernel
  have other : ∀ l ∈ (twoTiers.run (storeAndWait "news" ⟨"a", "", "", ""⟩)).backend.leaves,
      (l.stored? ⟨"a", "", "", ""⟩).all (fun s => !s.details.inGroup "sport") = true := by
    decide +kernel
  refine ⟨by decide +kernel, ?_, ?_⟩
  · exact (deleteGroup_complete_and_precise new _ drained "news").1 _ (by decide) [] _
  · refine (deleteGroup_complete_and_precise new _ drained "sport").2 [] _ fun l hl s hs => ?_
    have all := other l hl
    rw [hs] at all
    simpa using all

end Site
end VariantCache
