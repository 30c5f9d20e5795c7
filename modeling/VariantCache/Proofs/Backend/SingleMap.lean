import VariantCache.Proofs.Backend.Alike
import VariantCache.Proofs.Backend.SingleStore

/-!
# Tiers of map stores behave as one map store

A tree of map stores that starts empty, however its tiers are nested, is alike to a single
map store that starts empty (`Alike.of_empty`), and stays so under the same requests
(`Alike.step_onWhole`). Each part of the tree does its chores when it pleases; the single
store does them as a whole.
-/

namespace VariantCache

open Store Store.Edition

/-- The action, with chores of a part done by the whole. -/
def Action.onWhole : Action → Action
  | .perform _ (.chore c) => .perform [] (.chore c)
  | .perform path (.store key s) => .perform path (.store key s)
  | .perform path (.load key) => .perform path (.load key)
  | .perform path (.delete key) => .perform path (.delete key)
  | .perform path (.deleteGroup name) => .perform path (.deleteGroup name)
  | .tick date => .tick date
  | .add r => .add r
  | .insertBody s coding body => .insertBody s coding body
  | .fetch s coding => .fetch s coding

/-- A map store without entries. -/
def Store.Leaf.IsEmptyMap (l : Leaf) : Prop := ∃ period, l = .map (.empty period)

namespace Site

variable {base : Shelf} {site a b : Site} {action : Action}

theorem isPlaced_of_empty (empty : site.backend.All Leaf.IsEmptyMap) :
    site.IsPlaced site.shelf where
  maps := empty.imp fun _ hl => by
    obtain ⟨period, rfl⟩ := hl
    exact Leaf.isPlacedMap_map fun _ he => nomatch he
  grows := site.shelf.grows_refl

/-- Empty stores have nothing of any key. -/
theorem view_of_empty (empty : site.backend.All Leaf.IsEmptyMap) (k : CacheKey) :
    site.view k = site.backend.leaves.map fun _ => none :=
  List.map_congr_left fun l hl => by
    obtain ⟨period, rfl⟩ := empty l hl
    rfl

/-- Nothing in many stores is like nothing in one. -/
theorem Alike.of_empty (empty : site.backend.All Leaf.IsEmptyMap)
    (stores : site.backend.leaves ≠ []) {l : Leaf} (single : l.IsEmptyMap) :
    Alike site.shelf site (site.withLeaf l) := by
  have empty' : (site.withLeaf l).backend.All Leaf.IsEmptyMap := Backend.all_leaf.2 single
  refine ⟨rfl, isPlaced_of_empty empty, isPlaced_of_empty empty', fun k => ?_⟩
  rw [view_of_empty empty, view_of_empty empty']
  exact Stack.alike_map_const (iff_of_false stores (by simp [withLeaf, Backend.leaves])) none

theorem Alike.step_onWhole (h : Alike base a b) (asked : action.AtRoot base) :
    Alike base (a.step action) (b.step action.onWhole) := by
  cases asked with
  | chore path c => exact ((h.chore_left path c).symm.chore_left [] c).symm
  | store key held => exact h.step (.store key held)
  | load key => exact h.step (.load key)
  | delete key => exact h.step (.delete key)
  | deleteGroup name => exact h.step (.deleteGroup name)
  | tick date => exact h.step (.tick date)

theorem answer_onWhole (site : Site) (action : Action) :
    site.answer action.onWhole = site.answer action := by
  cases action with
  | perform path op => cases op <;> rfl
  | tick | add | insertBody | fetch => rfl

theorem Alike.answers_onWhole (h : Alike base a b) {actions : List Action}
    (asked : ∀ action ∈ actions, action.AtRoot base) :
    a.answers actions = b.answers (actions.map Action.onWhole) := by
  induction actions generalizing a b with
  | nil => rfl
  | cons action rest ih =>
    have here := asked action List.mem_cons_self
    have later := ih (h.step_onWhole here) fun action hm => asked action (List.mem_cons_of_mem _ hm)
    rw [List.map_cons, answers, answers, answer_onWhole, h.answer here, later]

/-- **Tiers of map stores behave as one map store.** Take any tree of map stores that has a store,
all of them empty, and any stores, loads, deletions, chores of any part, and times that never go
back. Every load from the whole tree gives what it gives when the same is done with a single map
store: nothing, or the same representation with the same bodies. -/
theorem tiers_answer_as_single {site : Site} (empty : site.backend.All Leaf.IsEmptyMap)
    (stores : site.backend.leaves ≠ []) {actions : List Action}
    (asked : ∀ action ∈ actions, action.AtRoot site.shelf) (period : Duration) :
    site.answers actions =
      (site.withLeaf (.map (.empty period))).answers (actions.map Action.onWhole) :=
  (Alike.of_empty empty stores ⟨period, rfl⟩).answers_onWhole asked

/-- Three empty stores, two of them in a tier of their own. -/
def threeStores : Site where
  backend := .tiered [.leaf (.map (.empty (.ofSeconds 10))),
    .tiered [.leaf (.map (.empty (.ofSeconds 20))), .leaf (.map (.empty (.ofSeconds 30)))]]
  shelf := ⟨#[.empty, .empty], []⟩
  now := .ofSeconds 0

/-- Two pages are stored, the store in the middle is swept when one has expired, and the group of
the other is deleted. -/
def pages : List Action :=
  [.perform [] (.store ⟨"old", "", "", ""⟩ ⟨⟨["news"], [], .ofSeconds 60⟩, 0⟩),
    .perform [] (.store ⟨"new", "", "", ""⟩ ⟨⟨["news"], [], .ofSeconds 90⟩, 1⟩),
    .perform [] (.load ⟨"old", "", "", ""⟩), .tick (.ofSeconds 61),
    .perform [1, 0] (.chore .sweep), .perform [] (.load ⟨"old", "", "", ""⟩),
    .perform [] (.load ⟨"new", "", "", ""⟩), .perform [] (.deleteGroup "news"),
    .perform [] (.load ⟨"new", "", "", ""⟩)]

theorem answers_threeStores :
    threeStores.answers pages =
      (threeStores.withLeaf (.map (.empty (.ofSeconds 10)))).answers (pages.map Action.onWhole) ∧
    (threeStores.answers pages).map (·.map (·.details.expiration.seconds)) =
      [none, none, some 60, none, none, none, some 90, none, none] := by
  have empty : threeStores.backend.All Leaf.IsEmptyMap := by
    simp only [threeStores, Backend.all_tiered, Backend.allOf_cons, Backend.all_leaf]
    exact ⟨⟨_, rfl⟩, ⟨⟨_, rfl⟩, ⟨_, rfl⟩, Backend.allOf_nil⟩, Backend.allOf_nil⟩
  have asked : ∀ action ∈ pages, action.AtRoot threeStores.shelf := by
    unfold pages
    simp only [List.forall_mem_cons]
    exact ⟨.store _ (by decide), .store _ (by decide), .load _, .tick _, .chore _ _, .load _,
      .load _, .deleteGroup _, .load _, List.forall_mem_nil _⟩
  exact ⟨tiers_answer_as_single empty (by decide) asked _, by decide +kernel⟩

end Site
end VariantCache
