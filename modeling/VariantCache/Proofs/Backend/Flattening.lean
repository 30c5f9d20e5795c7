import VariantCache.Proofs.Backend.Operations
import VariantCache.Proofs.Store.Twins

/-!
# Loads and stores, from left to right

What a store and a load do to a tree can be told from its stores in their order, without
the tree. A store puts one version of the representation into each of them (`Stored`). A
load goes through them until one has the key, and what it finds there is put into each of
those before it, once (`Fetched`): it does not matter which tier has promoted it.

Two trees with twins as their stores therefore find the same, and have twins again
(`Fetched.twins`).
-/

namespace VariantCache.Backend

open Store

variable {now : Instant} {key : CacheKey} {shelf larger shelf' larger' : Shelf} {r : Representation}

/-! ### One store of the tree -/

/-- A version of a representation was put into a store. -/
def Stored (now : Instant) (key : CacheKey) (shelf : Shelf) (r : Representation) (l after : Leaf) :
    Prop :=
  ∃ s, shelf.Has s r ∧ after = l.store now key s

theorem Stored.grows {l after : Leaf} (h : Stored now key shelf r l after)
    (g : shelf.Grows larger) : Stored now key larger r l after := by
  obtain ⟨s, has, eq⟩ := h
  exact ⟨s, has.grows g, eq⟩

theorem Stored.twins {l l' after after' : Leaf} (h : Stored now key shelf r l after)
    (h' : Stored now key shelf' r l' after') (twins : l.Twins shelf shelf' l') :
    after.Twins shelf shelf' after' := by
  obtain ⟨s, has, rfl⟩ := h
  obtain ⟨s', has', rfl⟩ := h'
  exact twins.store ⟨r, has, has'⟩ now key

theorem stored_grows {ls after : List Leaf} (h : List.Forall₂ (Stored now key shelf r) ls after)
    (g : shelf.Grows larger) : List.Forall₂ (Stored now key larger r) ls after :=
  h.imp fun _ _ stored => stored.grows g

theorem stored_twins {ls ls' after after' : List Leaf}
    (h : List.Forall₂ (Stored now key shelf r) ls after)
    (h' : List.Forall₂ (Stored now key shelf' r) ls' after')
    (same : List.Forall₂ (Leaf.Twins shelf shelf') ls ls') :
    List.Forall₂ (Leaf.Twins shelf shelf') after after' := by
  induction h generalizing ls' after' with
  | nil =>
    cases same
    cases h'
    exact .nil
  | cons stored _ ih =>
    obtain _ | ⟨first, others⟩ := same
    obtain _ | ⟨stored', behind'⟩ := h'
    exact .cons (stored.twins stored' first) (ih behind' others)

/-! ### Stores -/

mutual

/-- **A store puts one version of the representation into each store of a tree.** -/
theorem stored_leaves {s : Shared} {shelf : Shelf} :
    ∀ b : Backend, shelf.Has s r →
      List.Forall₂ (Stored now key (b.store now key s shelf).1 r) b.leaves
        (b.store now key s shelf).2.leaves
  | leaf _, has => .cons ⟨s, has, rfl⟩ .nil
  | tiered [], _ => .nil
  | tiered (first :: rest), has => by
    have copies := stored_leavesOf rest has
    have original := stored_leaves first (has.grows (grows_storeCopies now key s shelf rest))
    exact List.rel_append original (stored_grows copies (grows_store now key s _ first))

theorem stored_leavesOf {s : Shared} {shelf : Shelf} :
    ∀ tiers : List Backend, shelf.Has s r →
      List.Forall₂ (Stored now key (storeCopies now key s shelf tiers).1 r) (leavesOf tiers)
        (leavesOf (storeCopies now key s shelf tiers).2)
  | [], _ => .nil
  | tier :: rest, has => by
    have first := stored_leaves tier has.copy
    have larger := (shelf.grows_copy s).trans (grows_store now key (shelf.copy s).1 _ tier)
    have others := stored_leavesOf rest (has.grows larger)
    exact List.rel_append (stored_grows first (grows_storeCopies now key s _ rest)) others

end

/-! ### Loads -/

/-- A load goes through some stores: what it finds, and the stores after it. -/
inductive Fetched (now : Instant) (key : CacheKey) (shelf : Shelf) :
    List Leaf → Option Representation → List Leaf → Prop where
  | nil : Fetched now key shelf [] none []
  /-- The first store has the key, and the others are not asked. -/
  | hit {l : Leaf} {s : Shared} {r : Representation} {rest : List Leaf}
    (found : (l.load now key).1 = some s) (has : shelf.Has s r) :
    Fetched now key shelf (l :: rest) (some r) ((l.load now key).2 :: rest)
  /-- No store has the key. -/
  | miss {l : Leaf} {rest after : List Leaf} (missed : (l.load now key).1 = none)
    (behind : Fetched now key shelf rest none after) :
    Fetched now key shelf (l :: rest) none ((l.load now key).2 :: after)
  /-- The first store does not have the key, and gets what is found behind it. -/
  | promoted {l filled : Leaf} {r : Representation} {rest after : List Leaf}
    (missed : (l.load now key).1 = none) (behind : Fetched now key shelf rest (some r) after)
    (stored : Stored now key shelf r (l.load now key).2 filled) :
    Fetched now key shelf (l :: rest) (some r) (filled :: after)

namespace Fetched

variable {ls rs ls' after after' filled : List Leaf} {result result' : Option Representation}

theorem grows (h : Fetched now key shelf ls result after) (g : shelf.Grows larger) :
    Fetched now key larger ls result after := by
  induction h with
  | nil => exact .nil
  | hit found has => exact .hit found (has.grows g)
  | miss missed _ ih => exact .miss missed ih
  | promoted missed _ stored ih => exact .promoted missed ih (stored.grows g)

/-- The stores behind the one that has the key do not matter. -/
theorem append_of_some (h : Fetched now key shelf ls (some r) after) (rs : List Leaf) :
    Fetched now key shelf (ls ++ rs) (some r) (after ++ rs) := by
  generalize found : some r = result at h
  induction h with
  | nil => cases found
  | hit hit has =>
    cases found
    exact .hit hit has
  | miss _ _ _ => cases found
  | promoted missed _ stored ih =>
    cases found
    exact .promoted missed (ih rfl) stored

/-- When the first stores do not have the key, and nothing is found behind them. -/
theorem append_of_none (h : Fetched now key shelf ls none after)
    (behind : Fetched now key shelf rs none after') :
    Fetched now key shelf (ls ++ rs) none (after ++ after') := by
  generalize nothing : none = result at h
  induction h with
  | nil => exact behind
  | hit _ _ => cases nothing
  | miss missed _ ih => exact .miss missed (ih rfl)
  | promoted _ _ _ _ => cases nothing

/-- When the first stores do not have the key, each of them gets what is found behind them. -/
theorem append_promoted (h : Fetched now key shelf ls none after)
    (behind : Fetched now key shelf rs (some r) after')
    (stored : List.Forall₂ (Stored now key shelf r) after filled) :
    Fetched now key shelf (ls ++ rs) (some r) (filled ++ after') := by
  generalize nothing : none = result at h
  induction h generalizing filled with
  | nil =>
    cases stored
    exact behind
  | hit _ _ => cases nothing
  | miss missed _ ih =>
    cases stored with
    | cons first others => exact .promoted missed (ih others rfl) first
  | promoted _ _ _ _ => cases nothing

/-- **Twins give the same, and are left as twins.** -/
theorem twins (h : Fetched now key shelf ls result after)
    (h' : Fetched now key shelf' ls' result' after')
    (same : List.Forall₂ (Leaf.Twins shelf shelf') ls ls') :
    result = result' ∧ List.Forall₂ (Leaf.Twins shelf shelf') after after' := by
  induction h generalizing ls' result' after' with
  | nil =>
    cases same
    cases h'
    exact ⟨rfl, .nil⟩
  | hit found has =>
    obtain _ | ⟨first, others⟩ := same
    cases h' with
    | hit found' has' =>
      have loads := first.load now key
      rw [found, found'] at loads
      obtain ⟨⟨twin⟩, left⟩ := loads
      exact ⟨congrArg some (has.read.symm.trans (twin.read.trans has'.read)), .cons left others⟩
    | miss missed' _ | promoted missed' _ _ =>
      exact nomatch found.symm.trans ((first.load_eq_none_iff now key).2 missed')
  | miss missed _ ih =>
    obtain _ | ⟨first, others⟩ := same
    cases h' with
    | hit found' _ => exact nomatch found'.symm.trans ((first.load_eq_none_iff now key).1 missed)
    | miss _ behind' => exact ⟨rfl, .cons (first.load now key).2 (ih behind' others).2⟩
    | promoted _ behind' _ => exact nomatch (ih behind' others).1
  | promoted missed _ stored ih =>
    obtain _ | ⟨first, others⟩ := same
    cases h' with
    | hit found' _ => exact nomatch found'.symm.trans ((first.load_eq_none_iff now key).1 missed)
    | miss _ behind' => exact nomatch (ih behind' others).1
    | promoted _ behind' stored' =>
      obtain ⟨sameFound, left⟩ := ih behind' others
      obtain rfl := Option.some.inj sameFound
      exact ⟨rfl, .cons (stored.twins stored' (first.load now key).2) left⟩

end Fetched

/-- What is found in a store stands on the shelf. -/
def FindsPlaced (now : Instant) (key : CacheKey) (shelf : Shelf) (l : Leaf) : Prop :=
  ∀ s, (l.load now key).1 = some s → s.place < shelf.bodies.size

mutual

/-- **A load goes through the stores of a tree from left to right.** -/
theorem fetched_leaves {shelf : Shelf} :
    ∀ b : Backend, b.All (FindsPlaced now key shelf) →
      ∃ result, Option.Rel (b.load now key shelf).2.1.Has (b.load now key shelf).1 result ∧
        Fetched now key (b.load now key shelf).2.1 b.leaves result
          (b.load now key shelf).2.2.leaves
  | leaf l, placed => by
    cases found : (l.load now key).1 with
    | none =>
      refine ⟨none, ?_, .miss found .nil⟩
      show Option.Rel shelf.Has (l.load now key).1 none
      rw [found]
      exact .none
    | some s =>
      have has : shelf.Has s (shelf.read s) := ⟨all_leaf.1 placed s found, rfl⟩
      refine ⟨some (shelf.read s), ?_, .hit found has⟩
      show Option.Rel shelf.Has (l.load now key).1 _
      rw [found]
      exact .some has
  | tiered tiers, placed => fetched_leavesOf tiers (all_tiered.1 placed)

theorem fetched_leavesOf {shelf : Shelf} :
    ∀ tiers : List Backend, AllOf (FindsPlaced now key shelf) tiers →
      ∃ result, Option.Rel (loadTiers now key shelf tiers).2.1.Has (loadTiers now key shelf tiers).1
          result ∧
        Fetched now key (loadTiers now key shelf tiers).2.1 (leavesOf tiers) result
          (leavesOf (loadTiers now key shelf tiers).2.2)
  | [], _ => ⟨none, .none, .nil⟩
  | tier :: rest, placed => by
    obtain ⟨placedFirst, placedRest⟩ := allOf_cons.1 placed
    obtain ⟨result, same, fetched⟩ := fetched_leaves tier placedFirst
    have grown := grows_load now key shelf tier
    rw [loadTiers]
    generalize tier.load now key shelf = loaded at *
    obtain ⟨hit, shelf', tier'⟩ := loaded
    cases same with
    | @some s r has => exact ⟨some r, .some has, fetched.append_of_some (leavesOf rest)⟩
    | none =>
      obtain ⟨result, same, behind⟩ := fetched_leavesOf
        rest fun l hl s found => grown.place_lt (placedRest l hl s found)
      have grown' := grows_loadTiers now key shelf' rest
      simp only
      generalize loadTiers now key shelf' rest = loaded at *
      obtain ⟨hit, shelf'', rest'⟩ := loaded
      cases same with
      | none => exact ⟨none, .none, (fetched.grows grown').append_of_none behind⟩
      | @some s r has =>
        -- Each store of the tier gets a copy of what was found behind it.
        have larger := (shelf''.grows_copy s).trans (grows_store now key (shelf''.copy s).1 _ tier')
        refine ⟨some r, .some (has.grows larger), ?_⟩
        exact (fetched.grows (grown'.trans larger)).append_promoted (behind.grows larger)
          (stored_leaves tier' has.copy)

end

end VariantCache.Backend
