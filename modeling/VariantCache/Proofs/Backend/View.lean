import VariantCache.Proofs.Backend.Operations
import VariantCache.Proofs.Store.Stack

/-!
# What a tree of map stores shows of a key

The stores of a tree, from left to right, have a stack of editions of each key (`view`).
However the tiers are nested, a load finds the top of the stack of its key and promotes
it (`view_load`), and a store puts the same edition in every place (`view_store`).
Operations on the stores one by one change the stack place by place (`view_each`).
-/

namespace VariantCache

open Store Store.Edition

namespace Store.Leaf

/-- A map store, and the bodies of every version that a load would give are on the shelf. -/
structure IsPlacedMap (now : Instant) (shelf : Shelf) (l : Leaf) : Prop where
  isMap : l.IsMap
  placed : ∀ k t, l.Holds now k t → t.place < shelf.bodies.size

variable {now : Instant} {shelf larger : Shelf} {l : Leaf} {k : CacheKey}

/-- It is enough that the bodies of all entries are on the shelf. -/
theorem isPlacedMap_map {m : MapStore}
    (h : ∀ entry ∈ m.entries.entries, entry.2.place < shelf.bodies.size) :
    (map m).IsPlacedMap now shelf where
  isMap := ⟨m, rfl⟩
  placed k t holds := by
    rcases holds with load | waits
    · have stored := (MapStore.load_eq_some_iff.1 load).1
      exact h _ ((Table.get?_eq_some_iff _ _ _).1 stored)
    · cases waits

theorem IsPlacedMap.edition?_grows (h : l.IsPlacedMap now shelf) (g : shelf.Grows larger) :
    l.edition? now larger k = l.edition? now shelf k :=
  Leaf.edition?_grows g fun t load => h.placed k t (.inl load)

end Store.Leaf

namespace Backend

variable {now : Instant} {key k : CacheKey} {shelf larger : Shelf}

theorem maintained_isPlacedMap (now : Instant) :
    Maintained now (fun shelf l => l.IsPlacedMap now shelf)
      (fun shelf _ s => s.place < shelf.bodies.size) :=
  have versions := maintained_holds now (V := fun shelf _ s => s.place < shelf.bodies.size)
    (fun g lt => g.place_lt lt) fun _ => Shelf.place_copy_lt _ _
  { versions with
    grows := fun g h => ⟨h.isMap, versions.grows g h.placed⟩
    upkeep := fun keep h => ⟨h.isMap.upkeep keep, versions.upkeep keep h.placed⟩
    store := fun h lt => ⟨h.isMap.store, versions.store h.placed lt⟩
    found := fun h => versions.found h.placed }

/-- The editions that the stores of a tree have of a key, from left to right. -/
def view (now : Instant) (shelf : Shelf) (k : CacheKey) (b : Backend) : Stack :=
  b.leaves.map (·.edition? now shelf k)

/-- The editions that the stores of some tiers have of a key, from left to right. -/
def viewOf (now : Instant) (shelf : Shelf) (k : CacheKey) (tiers : List Backend) : Stack :=
  (leavesOf tiers).map (·.edition? now shelf k)

theorem view_leaf (l : Leaf) : (leaf l).view now shelf k = [l.edition? now shelf k] := by
  simp [view, leaves]

theorem view_tiered (tiers : List Backend) :
    (tiered tiers).view now shelf k = viewOf now shelf k tiers := by
  simp [view, viewOf, leaves]

theorem viewOf_nil : viewOf now shelf k [] = [] := by simp [viewOf, leavesOf]

theorem viewOf_cons (tier : Backend) (rest : List Backend) :
    viewOf now shelf k (tier :: rest) = tier.view now shelf k ++ viewOf now shelf k rest := by
  simp [viewOf, view, leavesOf]

theorem view_grows {b : Backend} (h : b.All (Leaf.IsPlacedMap now shelf)) (g : shelf.Grows larger) :
    b.view now larger k = b.view now shelf k :=
  List.map_congr_left fun l hl => (h l hl).edition?_grows g

theorem viewOf_grows {tiers : List Backend} (h : AllOf (Leaf.IsPlacedMap now shelf) tiers)
    (g : shelf.Grows larger) : viewOf now larger k tiers = viewOf now shelf k tiers :=
  List.map_congr_left fun l hl => (h l hl).edition?_grows g

/-! ### Stores one by one -/

/-- What is done to the edition of every store is done to the stack place by place. -/
theorem view_each {b : Backend} {f : Leaf → Leaf} {g : Option Edition → Option Edition}
    (h : b.All fun l => (f l).edition? now shelf k = g (l.edition? now shelf k)) :
    (b.each f).view now shelf k = (b.view now shelf k).map g := by
  rw [view, leaves_each, List.map_map, view, List.map_map]
  exact List.map_congr_left h

theorem view_mapLeaves {b : Backend} {f : Nat → Leaf → Leaf} {first : Nat}
    (h : ∀ number l, b.leaves[number]? = some l →
      (f (first + number) l).edition? now shelf k = l.edition? now shelf k) :
    (b.mapLeaves f first).view now shelf k = b.view now shelf k := by
  rw [view, leaves_mapLeaves, view]
  refine List.ext_getElem? fun number => ?_
  rw [List.getElem?_map, List.getElem?_mapIdx, List.getElem?_map]
  cases hl : b.leaves[number]? with
  | none => rfl
  | some l => exact congrArg some (h number l hl)

mutual

/-- What keeps the stacks of every part keeps those of the tree when it is done to a part. -/
theorem view_zoom {α : Type} {P : Leaf → Prop} {f : Backend → α × Backend} {a : α} {after : Backend}
    (step : ∀ part : Backend, part.All P → (f part).2.view now shelf k = part.view now shelf k) :
    ∀ {path : List Nat} {b : Backend}, b.All P → b.zoom f path = some (a, after) →
      after.view now shelf k = b.view now shelf k
  | [], b, h, hz => by
    rw [zoom] at hz
    obtain rfl := congrArg (·.2) (Option.some.inj hz)
    exact step b h
  | _ :: _, leaf _, _, hz => by
    rw [zoom] at hz
    cases hz
  | number :: path, tiered tiers, h, hz => by
    rw [zoom, Option.map_eq_some_iff] at hz
    obtain ⟨⟨_, tiers'⟩, hz, he⟩ := hz
    obtain rfl := congrArg (·.2) he
    rw [view_tiered, view_tiered]
    exact viewOf_zoomTiers step (show AllOf P tiers from h) hz

theorem viewOf_zoomTiers {α : Type} {P : Leaf → Prop} {f : Backend → α × Backend} {a : α}
    {after : List Backend} {number : Nat} {path : List Nat}
    (step : ∀ part : Backend, part.All P → (f part).2.view now shelf k = part.view now shelf k) :
    ∀ {tiers : List Backend}, AllOf P tiers → zoomTiers f number path tiers = some (a, after) →
      viewOf now shelf k after = viewOf now shelf k tiers
  | [], _, hz => by
    rw [zoomTiers] at hz
    cases hz
  | tier :: rest, h, hz => by
    obtain ⟨first, others⟩ := allOf_cons.1 h
    cases number with
    | zero =>
      rw [zoomTiers, Option.map_eq_some_iff] at hz
      obtain ⟨⟨_, tier'⟩, hz, he⟩ := hz
      obtain rfl := congrArg (·.2) he
      rw [viewOf_cons, viewOf_cons, view_zoom step first hz]
    | succ number =>
      rw [zoomTiers, Option.map_eq_some_iff] at hz
      obtain ⟨⟨_, rest'⟩, hz, he⟩ := hz
      obtain rfl := congrArg (·.2) he
      rw [viewOf_cons, viewOf_cons, viewOf_zoomTiers step others hz]

end

/-! ### Stores -/

/-- What a store puts in the place of an edition. -/
def replaced (now : Instant) (key : CacheKey) (r : Representation) (k : CacheKey)
    (place : Option Edition) : Option Edition :=
  if k = key then fresh? now r else place

mutual

/-- **A store puts the same edition in every place.** -/
theorem view_store (s : Shared) (shelf : Shelf) :
    ∀ b : Backend, b.All (Leaf.IsPlacedMap now shelf) → s.place < shelf.bodies.size →
      (b.store now key s shelf).2.view now (b.store now key s shelf).1 k =
        (b.view now shelf k).map (replaced now key (shelf.read s) k)
  | leaf l, h, _ => by
    rw [store, view_leaf, view_leaf, List.map_singleton, replaced]
    exact congrArg (fun place => [place]) (Leaf.edition?_store (all_leaf.1 h).isMap)
  | tiered [], _, _ => by rw [store, view_tiered, viewOf_nil, List.map_nil]
  | tiered (first :: rest), h, lt => by
    obtain ⟨hf, hr⟩ := allOf_cons.1 (all_tiered.1 h)
    have m := maintained_isPlacedMap now
    have copies := grows_storeCopies now key s shelf rest
    have others := viewOf_storeCopies s shelf rest hr lt
    have stored := view_store s _ first (m.all_grows copies hf) (copies.place_lt lt)
    have grown := grows_store now key s (storeCopies now key s shelf rest).1 first
    simp only [store, view_tiered, viewOf_cons, List.map_append]
    rw [viewOf_grows (m.all_storeCopies s shelf rest hr lt) grown, others, stored,
      view_grows hf copies, copies.read lt]

theorem viewOf_storeCopies (s : Shared) (shelf : Shelf) :
    ∀ tiers : List Backend, AllOf (Leaf.IsPlacedMap now shelf) tiers → s.place < shelf.bodies.size →
      viewOf now (storeCopies now key s shelf tiers).1 k (storeCopies now key s shelf tiers).2 =
        (viewOf now shelf k tiers).map (replaced now key (shelf.read s) k)
  | [], _, _ => by rw [storeCopies, viewOf_nil, List.map_nil]
  | tier :: rest, h, lt => by
    obtain ⟨hf, hr⟩ := allOf_cons.1 h
    have m := maintained_isPlacedMap now
    have copied := shelf.grows_copy s
    have larger := copied.trans (grows_store now key (shelf.copy s).1 _ tier)
    have placed := shelf.place_copy_lt s
    have stored := view_store (shelf.copy s).1 _ tier (m.all_grows copied hf) placed
    have kept : All _ (store now key (shelf.copy s).1 (shelf.copy s).2 tier).2 :=
      m.all_store (shelf.copy s).1 _ tier (m.all_grows copied hf) placed
    have grown :=
      grows_storeCopies now key s (store now key (shelf.copy s).1 (shelf.copy s).2 tier).1 rest
    have others := viewOf_storeCopies s _ rest (m.allOf_grows larger hr) (larger.place_lt lt)
    simp only [storeCopies, viewOf_cons, List.map_append]
    rw [view_grows kept grown, stored, others, view_grows hf copied, viewOf_grows hr larger,
      shelf.read_copy, larger.read lt]

end

/-! ### Loads -/

/-- What stores have is fresh, and listed under its own groups only. -/
theorem of_mem_view {b : Backend} {e : Edition} (h : some e ∈ b.view now shelf k) :
    now ≤ e.representation.details.expiration ∧ e.listed ⊆ e.representation.details.groups := by
  obtain ⟨l, -, he⟩ := List.mem_map.1 h
  obtain ⟨s, load, rfl⟩ := Option.map_eq_some_iff.1 he
  exact ⟨Leaf.le_expiration_of_load load, fun _ hn => (GroupIndex.mem_listing.1 hn).1⟩

/-- What a load makes of the stack of a key: that of the key that is asked for is promoted. -/
def loaded (key k : CacheKey) (stack : Stack) : Stack := if k = key then stack.promote else stack

/-- A load found the top of a stack, and promoted it. -/
structure LoadedFrom (key : CacheKey) (before : CacheKey → Stack) (found : Option Representation)
    (after : CacheKey → Stack) : Prop where
  found : found = (before key).top?
  after : ∀ k, after k = loaded key k (before k)

namespace LoadedFrom

variable {before after below below' : CacheKey → Stack} {r : Representation}

/-- What stands below the tier where something is found stays as it is. -/
theorem append_of_some (h : LoadedFrom key before (some r) after) (below : CacheKey → Stack) :
    LoadedFrom key (fun k => before k ++ below k) (some r) fun k => after k ++ below k where
  found := by rw [Stack.top?_append, ← h.found]; rfl
  after k := by
    rw [h.after]
    unfold loaded
    split
    · next same => rw [same, Stack.promote_append_of_some h.found.symm]
    · rfl

/-- When nothing is found, nothing changes. -/
theorem append_of_none (h : LoadedFrom key before none after)
    (h' : LoadedFrom key below none below') :
    LoadedFrom key (fun k => before k ++ below k) none fun k => after k ++ below' k where
  found := by rw [Stack.top?_append, ← h.found, ← h'.found]; rfl
  after k := by
    rw [h.after, h'.after]
    unfold loaded
    split
    · next same =>
      rw [same, Stack.promote_of_none h.found.symm, Stack.promote_of_none h'.found.symm,
        Stack.promote_of_none (by rw [Stack.top?_append, ← h.found, ← h'.found]; rfl)]
    · rfl

/-- What is found in a lower tier is stored in the tier that did not have it. -/
theorem append_of_lower (h : LoadedFrom key before none after)
    (h' : LoadedFrom key below (some r) below') (fresh : now ≤ r.details.expiration) :
    LoadedFrom key (fun k => before k ++ below k) (some r)
      fun k => (after k).map (replaced now key r k) ++ below' k where
  found := by rw [Stack.top?_append, ← h.found, ← h'.found]; rfl
  after k := by
    rw [h.after, h'.after]
    unfold loaded
    by_cases same : k = key
    · subst same
      have stored : replaced now k r k = fun _ => some (.full r) := by
        funext place
        rw [replaced, if_pos rfl, fresh?, if_pos fresh]
      rw [if_pos rfl, if_pos rfl, if_pos rfl, stored, Stack.promote_of_none h.found.symm,
        Stack.promote_append_of_none h.found.symm h'.found.symm]
    · have kept : replaced now key r k = id := by
        funext place
        rw [replaced, if_neg same]
        rfl
      rw [if_neg same, if_neg same, if_neg same, kept, List.map_id]

end LoadedFrom

mutual

/-- **A load finds the top of the stack of its key, and promotes it.** -/
theorem view_load (shelf : Shelf) :
    ∀ b : Backend, b.All (Leaf.IsPlacedMap now shelf) →
      LoadedFrom key (fun k => b.view now shelf k)
        ((b.load now key shelf).1.map (b.load now key shelf).2.1.read)
        fun k => (b.load now key shelf).2.2.view now (b.load now key shelf).2.1 k
  | leaf l, h => by
    refine ⟨?_, fun k => ?_⟩
    · simp only [load, view_leaf]
      rw [Stack.top?]
      cases found : (l.load now key).1 <;> simp [Leaf.edition?, found]
    · have same : (l.load now key).2.edition? now shelf k = l.edition? now shelf k :=
        Leaf.edition?_load (all_leaf.1 h).isMap
      simp only [load, view_leaf, loaded, Stack.promote_singleton, same, ite_self]
  | tiered tiers, h => by
    simp only [load, view_tiered]
    exact viewOf_loadTiers shelf tiers (all_tiered.1 h)

theorem viewOf_loadTiers (shelf : Shelf) :
    ∀ tiers : List Backend, AllOf (Leaf.IsPlacedMap now shelf) tiers →
      LoadedFrom key (fun k => viewOf now shelf k tiers)
        ((loadTiers now key shelf tiers).1.map (loadTiers now key shelf tiers).2.1.read)
        fun k =>
          viewOf now (loadTiers now key shelf tiers).2.1 k (loadTiers now key shelf tiers).2.2
  | [], _ => by
    refine ⟨rfl, fun k => ?_⟩
    simp only [loadTiers, viewOf_nil, loaded]
    split <;> rfl
  | tier :: rest, h => by
    obtain ⟨hf, hr⟩ := allOf_cons.1 h
    have m := maintained_isPlacedMap now
    have first := view_load shelf tier hf
    have kept : (tier.load now key shelf).2.2.All _ := (m.all_load shelf tier hf).1
    have grown := grows_load now key shelf tier
    simp only [viewOf_cons]
    rw [loadTiers]
    generalize tier.load now key shelf = result at *
    obtain ⟨found, shelf', tier'⟩ := result
    cases found with
    | some s =>
      simp only [viewOf_cons] at *
      simp only [viewOf_grows hr grown]
      exact first.append_of_some _
    | none =>
      have others := viewOf_loadTiers shelf' rest (m.allOf_grows grown hr)
      have kept' : AllOf _ (loadTiers now key shelf' rest).2.2 ∧ _ :=
        m.all_loadTiers shelf' rest (m.allOf_grows grown hr)
      have grown' := grows_loadTiers now key shelf' rest
      simp only at *
      generalize loadTiers now key shelf' rest = result at *
      obtain ⟨found, shelf'', rest'⟩ := result
      cases found with
      | none =>
        simp only [viewOf_cons, view_grows kept grown'] at *
        simp only [viewOf_grows hr grown] at others
        exact first.append_of_none others
      | some s =>
        simp only [Option.map_some] at *
        obtain ⟨e, he, top⟩ := Stack.exists_mem_of_top? others.found.symm
        rw [← view_tiered] at he
        have fresh : now ≤ (shelf''.read s).details.expiration := top ▸ (of_mem_view he).1
        simp only [viewOf_grows hr grown] at others
        -- The tier gets a copy, on a shelf that has grown by then.
        have lt := kept'.2 s rfl
        have copied := grown'.trans (shelf''.grows_copy s)
        have larger := (shelf''.grows_copy s).trans
          (grows_store now key (shelf''.copy s).1 (shelf''.copy s).2 tier')
        have stored (k : CacheKey) :
            view now (tier'.store now key (shelf''.copy s).1 (shelf''.copy s).2).1 k
              (tier'.store now key (shelf''.copy s).1 (shelf''.copy s).2).2 =
            (view now shelf' k tier').map (replaced now key (shelf''.read s) k) := by
          rw [view_store _ _ tier' (m.all_grows copied kept) (shelf''.place_copy_lt s),
            shelf''.read_copy, view_grows kept copied]
        simp only [viewOf_cons, larger.read lt, stored, viewOf_grows kept'.1 larger]
        exact first.append_of_lower others fresh

end

end Backend
end VariantCache
