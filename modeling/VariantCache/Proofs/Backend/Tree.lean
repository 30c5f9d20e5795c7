import VariantCache.Backend

/-!
# Trees of stores

What is true of every store of a tree (`All`) is proved store by store. An operation on
the stores one by one keeps the tree as it stands, and so do loads and stores: they put
copies on the shelf, and how many depends on the tree without its entries only
(`outline`).
-/

namespace VariantCache.Backend

open Store

/-! ### Every store -/

/-- Every store of a backend has a property. -/
def All (P : Leaf → Prop) (b : Backend) : Prop := ∀ l ∈ b.leaves, P l

/-- Every store of some tiers has a property. -/
def AllOf (P : Leaf → Prop) (tiers : List Backend) : Prop := ∀ l ∈ leavesOf tiers, P l

variable {P Q : Leaf → Prop}

theorem all_leaf {l : Leaf} : (leaf l).All P ↔ P l := by simp [All, leaves]

theorem all_tiered {tiers : List Backend} : (tiered tiers).All P ↔ AllOf P tiers := Iff.rfl

theorem allOf_nil : AllOf P [] := fun _ h => nomatch h

theorem allOf_cons {tier : Backend} {rest : List Backend} :
    AllOf P (tier :: rest) ↔ tier.All P ∧ AllOf P rest := by
  simp only [AllOf, All, leavesOf, List.mem_append, or_imp, forall_and]

theorem All.imp {b : Backend} (h : b.All P) (weaker : ∀ l, P l → Q l) : b.All Q :=
  fun l hl => weaker l (h l hl)

mutual

theorem all_mapLeaves {f : Nat → Leaf → Leaf} (step : ∀ n l, P l → Q (f n l)) (first : Nat) :
    ∀ b : Backend, b.All P → (b.mapLeaves f first).All Q
  | leaf l, h => all_leaf.2 (step first l (all_leaf.1 h))
  | tiered tiers, h => all_mapTiers step first tiers h

theorem all_mapTiers {f : Nat → Leaf → Leaf} (step : ∀ n l, P l → Q (f n l)) (first : Nat) :
    ∀ tiers : List Backend, AllOf P tiers → AllOf Q (mapTiers f first tiers)
  | [], _ => allOf_nil
  | tier :: rest, h =>
    allOf_cons.2 ⟨all_mapLeaves step first tier (allOf_cons.1 h).1,
      all_mapTiers step _ rest (allOf_cons.1 h).2⟩

end

theorem All.each {b : Backend} {f : Leaf → Leaf} (h : b.All P) (step : ∀ l, P l → Q (f l)) :
    (b.each f).All Q :=
  all_mapLeaves (fun _ => step) 0 b h

theorem All.update {b : Backend} {f : Leaf → Leaf} {number : Nat} (h : b.All P)
    (step : ∀ l, P l → P (f l)) : (b.update number f).All P := by
  refine all_mapLeaves (fun n l hl => ?_) 0 b h
  split
  · exact step l hl
  · exact hl

mutual

theorem mapLeaves_eq_each (f : Leaf → Leaf) (first : Nat) :
    ∀ b : Backend, b.mapLeaves (fun _ => f) first = b.each f
  | leaf _ => rfl
  | tiered tiers => by
    rw [each, mapLeaves, mapLeaves, mapTiers_eq_map f first tiers, mapTiers_eq_map f 0 tiers]

theorem mapTiers_eq_map (f : Leaf → Leaf) (first : Nat) :
    ∀ tiers : List Backend, mapTiers (fun _ => f) first tiers = tiers.map (each f)
  | [] => rfl
  | tier :: rest => by
    rw [mapTiers, List.map_cons, mapLeaves_eq_each f first tier, mapTiers_eq_map f _ rest]

end

theorem each_leaf (f : Leaf → Leaf) (l : Leaf) : (leaf l).each f = leaf (f l) := rfl

theorem each_tiered (f : Leaf → Leaf) (tiers : List Backend) :
    (tiered tiers).each f = tiered (tiers.map (each f)) :=
  congrArg tiered (mapTiers_eq_map f 0 tiers)

mutual

theorem each_each (f g : Leaf → Leaf) : ∀ b : Backend, (b.each f).each g = b.each fun l => g (f l)
  | leaf _ => rfl
  | tiered tiers => by rw [each_tiered, each_tiered, each_tiered, map_each_each f g tiers]

theorem map_each_each (f g : Leaf → Leaf) :
    ∀ tiers : List Backend, (tiers.map (each f)).map (each g) = tiers.map (each fun l => g (f l))
  | [] => rfl
  | tier :: rest => by
    rw [List.map_cons, List.map_cons, List.map_cons, each_each f g tier, map_each_each f g rest]

end

mutual

/-- Changing the stores of a tree changes them in order. -/
theorem leaves_mapLeaves (f : Nat → Leaf → Leaf) (first : Nat) :
    ∀ b : Backend, (b.mapLeaves f first).leaves = b.leaves.mapIdx fun number => f (first + number)
  | leaf l => by rw [mapLeaves, leaves, leaves, List.mapIdx_singleton, Nat.add_zero]
  | tiered tiers => by rw [mapLeaves, leaves, leaves, leavesOf_mapTiers f first tiers]

theorem leavesOf_mapTiers (f : Nat → Leaf → Leaf) (first : Nat) :
    ∀ tiers : List Backend,
      leavesOf (mapTiers f first tiers) = (leavesOf tiers).mapIdx fun number => f (first + number)
  | [] => by rw [mapTiers, leavesOf, List.mapIdx_nil]
  | tier :: rest => by
    rw [mapTiers, leavesOf, leavesOf, List.mapIdx_append, leaves_mapLeaves f first tier,
      leavesOf_mapTiers f _ rest]
    simp only [Nat.add_left_comm, Nat.add_comm]

end

theorem leaves_each (f : Leaf → Leaf) (b : Backend) : (b.each f).leaves = b.leaves.map f := by
  rw [each, leaves_mapLeaves]
  exact List.ext_getElem? fun number => by rw [List.getElem?_mapIdx, List.getElem?_map]

/-! ### Parts -/

mutual

/-- The part of a tree at a path, if there is one. -/
def part? : List Nat → Backend → Option Backend
  | [], b => some b
  | _ :: _, leaf _ => none
  | number :: path, tiered tiers => partOf? number path tiers

/-- The part of the tier with the given number. -/
def partOf? (number : Nat) (path : List Nat) : List Backend → Option Backend
  | [] => none
  | tier :: rest =>
    match number with
    | 0 => part? path tier
    | number + 1 => partOf? number path rest

end

mutual

/-- A function that is applied to a part gives what it gives for the part alone. -/
theorem zoom_fst {α : Type} (f : Backend → α × Backend) :
    ∀ (path : List Nat) (b : Backend),
      (b.zoom f path).map (·.1) = (b.part? path).map fun part => (f part).1
  | [], _ => by simp only [zoom, part?, Option.map_some]
  | _ :: _, leaf _ => by simp only [zoom, part?, Option.map_none]
  | number :: path, tiered tiers => by
    rw [zoom, part?, Option.map_map, ← zoomTiers_fst f number path tiers]
    rfl

theorem zoomTiers_fst {α : Type} (f : Backend → α × Backend) (number : Nat) (path : List Nat) :
    ∀ tiers : List Backend,
      (zoomTiers f number path tiers).map (·.1) =
        (partOf? number path tiers).map fun part => (f part).1
  | [] => by simp only [zoomTiers, partOf?, Option.map_none]
  | tier :: rest => by
    cases number with
    | zero =>
      rw [zoomTiers, partOf?, Option.map_map, ← zoom_fst f path tier]
      rfl
    | succ number =>
      rw [zoomTiers, partOf?, Option.map_map, ← zoomTiers_fst f number path rest]
      rfl

end

mutual

theorem part?_each (g : Leaf → Leaf) :
    ∀ (path : List Nat) (b : Backend), (b.each g).part? path = (b.part? path).map (each g)
  | [], _ => by simp only [part?, Option.map_some]
  | _ :: _, leaf _ => by simp only [each_leaf, part?, Option.map_none]
  | number :: path, tiered tiers => by
    rw [each_tiered, part?, part?, partOf?_each g number path tiers]

theorem partOf?_each (g : Leaf → Leaf) (number : Nat) (path : List Nat) :
    ∀ tiers : List Backend,
      partOf? number path (tiers.map (each g)) = (partOf? number path tiers).map (each g)
  | [] => by simp only [List.map_nil, partOf?, Option.map_none]
  | tier :: rest => by
    cases number with
    | zero => rw [List.map_cons, partOf?, partOf?, part?_each g path tier]
    | succ number => rw [List.map_cons, partOf?, partOf?, partOf?_each g number path rest]

end

mutual

/-- The stores of a part are stores of the tree. -/
theorem All.part {part : Backend} :
    ∀ {path : List Nat} {b : Backend}, b.All P → b.part? path = some part → part.All P
  | [], b, h, hp => by
    rw [part?] at hp
    obtain rfl := Option.some.inj hp
    exact h
  | _ :: _, leaf _, _, hp => by
    rw [part?] at hp
    cases hp
  | number :: path, tiered tiers, h, hp => by
    rw [part?] at hp
    exact all_partOf h hp

theorem all_partOf {part : Backend} {number : Nat} {path : List Nat} :
    ∀ {tiers : List Backend}, AllOf P tiers → partOf? number path tiers = some part → part.All P
  | [], _, hp => by
    rw [partOf?] at hp
    cases hp
  | tier :: rest, h, hp => by
    cases number with
    | zero =>
      rw [partOf?] at hp
      exact (allOf_cons.1 h).1.part hp
    | succ number =>
      rw [partOf?] at hp
      exact all_partOf (allOf_cons.1 h).2 hp

end

mutual

/-- What is true of the stores of every part after a change, is true of the tree after the
change of a part. -/
theorem all_zoom {α : Type} {f : Backend → α × Backend} {a : α} {after : Backend}
    (other : ∀ l, P l → Q l) (step : ∀ part : Backend, part.All P → (f part).2.All Q) :
    ∀ {path : List Nat} {b : Backend}, b.All P → b.zoom f path = some (a, after) → after.All Q
  | [], b, h, hz => by
    rw [zoom] at hz
    obtain rfl := congrArg (·.2) (Option.some.inj hz)
    exact step b h
  | _ :: _, leaf _, _, hz => by
    rw [zoom] at hz
    cases hz
  | number :: path, tiered tiers, h, hz => by
    rw [zoom, Option.map_eq_some_iff] at hz
    obtain ⟨⟨_, tiers'⟩, hz, he⟩ := hz
    obtain rfl := congrArg (·.2) he
    exact all_zoomTiers other step (show AllOf P tiers from h) hz

theorem all_zoomTiers {α : Type} {f : Backend → α × Backend} {a : α} {after : List Backend}
    (other : ∀ l, P l → Q l) (step : ∀ part : Backend, part.All P → (f part).2.All Q)
    {number : Nat} {path : List Nat} :
    ∀ {tiers : List Backend}, AllOf P tiers → zoomTiers f number path tiers = some (a, after) →
      AllOf Q after
  | [], _, hz => by
    rw [zoomTiers] at hz
    cases hz
  | tier :: rest, h, hz => by
    obtain ⟨first, others⟩ := allOf_cons.1 h
    cases number with
    | zero =>
      rw [zoomTiers, Option.map_eq_some_iff] at hz
      obtain ⟨⟨_, tier'⟩, hz, he⟩ := hz
      obtain rfl := congrArg (·.2) he
      exact allOf_cons.2 ⟨all_zoom other step first hz, fun l hl => other l (others l hl)⟩
    | succ number =>
      rw [zoomTiers, Option.map_eq_some_iff] at hz
      obtain ⟨⟨_, rest'⟩, hz, he⟩ := hz
      obtain rfl := congrArg (·.2) he
      exact allOf_cons.2 ⟨fun l hl => other l (first l hl), all_zoomTiers other step others hz⟩

end

/-! ### The outline of a tree -/

/-- The tree without what its stores hold. -/
def outline (b : Backend) : Backend := b.each fun _ => .map (.empty .zero)

theorem outline_tiered (tiers : List Backend) :
    (tiered tiers).outline = tiered (tiers.map outline) :=
  each_tiered _ tiers

theorem outline_each (f : Leaf → Leaf) (b : Backend) :
    (b.each f).outline = b.outline := each_each _ _ b

variable {now : Instant} {key : CacheKey}

mutual

/-- A store leaves the tree as it stands. -/
theorem outline_store (s : Shared) (shelf : Shelf) :
    ∀ b : Backend, (b.store now key s shelf).2.outline = b.outline
  | leaf _ => rfl
  | tiered [] => rfl
  | tiered (first :: rest) => by
    simp only [store, outline_tiered, List.map_cons]
    rw [outline_store _ _ first, outline_storeCopies _ _ rest]

theorem outline_storeCopies (s : Shared) (shelf : Shelf) :
    ∀ tiers : List Backend, (storeCopies now key s shelf tiers).2.map outline = tiers.map outline
  | [] => rfl
  | tier :: rest => by
    simp only [storeCopies, List.map_cons]
    rw [outline_store _ _ tier, outline_storeCopies _ _ rest]

end

mutual

/-- What a store puts on the shelf depends on the outline. -/
theorem store_shelf (s : Shared) (shelf : Shelf) :
    ∀ b : Backend, (b.outline.store now key s shelf).1 = (b.store now key s shelf).1
  | leaf _ => rfl
  | tiered [] => rfl
  | tiered (first :: rest) => by
    simp only [outline_tiered, List.map_cons, store]
    rw [storeCopies_shelf s shelf rest, store_shelf _ _ first]

theorem storeCopies_shelf (s : Shared) (shelf : Shelf) :
    ∀ tiers : List Backend,
      (storeCopies now key s shelf (tiers.map outline)).1 = (storeCopies now key s shelf tiers).1
  | [] => rfl
  | tier :: rest => by
    simp only [List.map_cons, storeCopies]
    rw [store_shelf _ _ tier, storeCopies_shelf _ _ rest]

end

theorem store_shelf_congr {b c : Backend} (h : b.outline = c.outline) (s : Shared) (shelf : Shelf) :
    (b.store now key s shelf).1 = (c.store now key s shelf).1 := by
  rw [← store_shelf s shelf b, h, store_shelf]

mutual

/-- A load leaves the tree as it stands. -/
theorem outline_load (shelf : Shelf) : ∀ b : Backend, (b.load now key shelf).2.2.outline = b.outline
  | leaf _ => rfl
  | tiered tiers => by
    simp only [load, outline_tiered]
    rw [outline_loadTiers shelf tiers]

theorem outline_loadTiers (shelf : Shelf) :
    ∀ tiers : List Backend, (loadTiers now key shelf tiers).2.2.map outline = tiers.map outline
  | [] => rfl
  | tier :: rest => by
    have first := outline_load shelf tier
    rw [loadTiers]
    split
    · next h =>
      rw [h] at first
      rw [List.map_cons, List.map_cons, first]
    · next shelf' tier' h =>
      rw [h] at first
      have others := outline_loadTiers shelf' rest
      split
      · next h =>
        rw [h] at others
        rw [List.map_cons, List.map_cons, first, others]
      · next h =>
        rw [h] at others
        simp only [List.map_cons, outline_store]
        rw [first, others]

end

mutual

/-- A load finds the same, and puts the same on the shelf, when every store finds what it would
have found before it was changed. -/
theorem load_each {f : Leaf → Leaf} (shelf : Shelf) :
    ∀ b : Backend, b.All (fun l => ((f l).load now key).1 = (l.load now key).1) →
      ((b.each f).load now key shelf).1 = (b.load now key shelf).1 ∧
        ((b.each f).load now key shelf).2.1 = (b.load now key shelf).2.1
  | leaf _, h => ⟨all_leaf.1 h, rfl⟩
  | tiered tiers, h => by
    rw [each_tiered]
    exact loadTiers_each shelf tiers h

theorem loadTiers_each {f : Leaf → Leaf} (shelf : Shelf) :
    ∀ tiers : List Backend, AllOf (fun l => ((f l).load now key).1 = (l.load now key).1) tiers →
      (loadTiers now key shelf (tiers.map (each f))).1 = (loadTiers now key shelf tiers).1 ∧
        (loadTiers now key shelf (tiers.map (each f))).2.1 = (loadTiers now key shelf tiers).2.1
  | [], _ => ⟨rfl, rfl⟩
  | tier :: rest, h => by
    obtain ⟨first, others⟩ := allOf_cons.1 h
    obtain ⟨sameFound, sameShelf⟩ := load_each shelf tier first
    have outlines :
        ((tier.each f).load now key shelf).2.2.outline = (tier.load now key shelf).2.2.outline := by
      rw [outline_load, outline_load, outline_each]
    rw [List.map_cons, loadTiers, loadTiers]
    generalize (tier.each f).load now key shelf = changed at *
    generalize tier.load now key shelf = plain at *
    obtain ⟨found, shelf₁, tier₁⟩ := plain
    obtain ⟨found', shelf', tier'⟩ := changed
    obtain rfl : found' = found := sameFound
    obtain rfl : shelf' = shelf₁ := sameShelf
    cases found' with
    | some s => exact ⟨rfl, rfl⟩
    | none =>
      obtain ⟨sameFound, sameShelf⟩ := loadTiers_each shelf' rest others
      simp only
      generalize loadTiers now key shelf' (rest.map (each f)) = changed at *
      generalize loadTiers now key shelf' rest = plain at *
      obtain ⟨found, shelf₂, rest₂⟩ := plain
      obtain ⟨found', shelf', rest'⟩ := changed
      obtain rfl : found' = found := sameFound
      obtain rfl : shelf' = shelf₂ := sameShelf
      cases found' with
      | none => exact ⟨rfl, rfl⟩
      | some s => exact ⟨rfl, store_shelf_congr outlines _ _⟩

end

end VariantCache.Backend
