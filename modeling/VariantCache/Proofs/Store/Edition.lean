import VariantCache.Proofs.Shelf.Growth
import VariantCache.Proofs.Store.Listing
import VariantCache.Proofs.Store.Map

/-!
# Editions

An edition is what a store has of a key as far as anything later can depend on it: the
fresh representation as it is now, and those of its groups that the index lists the key
under. The other groups of the version are lost on the store: the deletion of such a
group does not reach it. No invariant is assumed, so the index may be in any state.

Each operation of a map store does one thing to the edition of a key: a store replaces it
(`edition?_store`), a deletion, the deletion of a group and the passing of time take it
away under a condition that can be read off the edition, and loads and chores do nothing.
-/

namespace VariantCache.Store

/-- What a store has of a key. -/
structure Edition where
  representation : Representation
  /-- The groups of the representation that the key is listed under. -/
  listed : List String

namespace Edition

/-- A representation that is listed under all its groups. -/
def full (r : Representation) : Edition := ⟨r, r.details.groups⟩

/-- A representation that is listed under all its groups, if it is fresh. -/
def fresh? (now : Instant) (r : Representation) : Option Edition :=
  if now ≤ r.details.expiration then some (full r) else none

end Edition

namespace Leaf

variable {now : Instant} {key k : CacheKey} {s t : Shared} {shelf larger : Shelf} {l : Leaf}
  {name : String}

/-- The store is a map store. -/
def IsMap (l : Leaf) : Prop := ∃ m, l = map m

/-- The edition that a store has of a key. -/
def edition? (now : Instant) (shelf : Shelf) (key : CacheKey) (l : Leaf) : Option Edition :=
  (l.load now key).1.map fun s => ⟨shelf.read s, l.groups.listing key s.details.groups⟩

theorem edition?_eq_none_iff : l.edition? now shelf k = none ↔ (l.load now k).1 = none := by
  rw [edition?, Option.map_eq_none_iff]

theorem edition?_of_load (load : (l.load now k).1 = some t) :
    l.edition? now shelf k = some ⟨shelf.read t, l.groups.listing k t.details.groups⟩ := by
  rw [edition?, load, Option.map_some]

/-- Whether a fresh version is listed under one of its groups is known for a member of it. -/
theorem isMember_of_load (load : (l.load now k).1 = some t) (hn : name ∈ t.details.groups) :
    IsMember (l.members now) now name k :=
  isMember_iff.2 ⟨t, load, List.contains_iff_mem.2 hn⟩

/-- A store has the same edition when it finds the same and lists it under the same groups. -/
theorem edition?_congr {other : Leaf} (found : (other.load now k).1 = (l.load now k).1)
    (listed : ∀ t, (l.load now k).1 = some t → ∀ name ∈ t.details.groups,
      other.groups.Lists name k ↔ l.groups.Lists name k) :
    other.edition? now shelf k = l.edition? now shelf k := by
  unfold edition?
  rw [found]
  cases load : (l.load now k).1 with
  | none => rfl
  | some t =>
    simp only [Option.map_some]
    rw [GroupIndex.listing_congr (listed t load)]

/-- Nobody's edition depends on what is put on the shelf afterwards. -/
theorem edition?_grows (g : shelf.Grows larger)
    (placed : ∀ t, (l.load now k).1 = some t → t.place < shelf.bodies.size) :
    l.edition? now larger k = l.edition? now shelf k := by
  unfold edition?
  cases load : (l.load now k).1 with
  | none => rfl
  | some t => simp only [Option.map_some, g.read (placed t load)]

/-! ### Operations -/

theorem edition?_load (h : l.IsMap) :
    (l.load now key).2.edition? now shelf k = l.edition? now shelf k := by
  obtain ⟨m, rfl⟩ := h
  refine edition?_congr (m.load_load now key k) fun _ _ name _ => ?_
  rw [groups_load]

/-- What was stored is listed under all its groups, while it is fresh. -/
theorem edition?_store_self (m : MapStore) :
    (map (m.store now key s)).edition? now shelf key = Edition.fresh? now (shelf.read s) := by
  have found : ((map (m.store now key s)).load now key).1 = _ := m.load_store now key key s
  rw [if_pos rfl, Option.filter_some] at found
  have fresh : Edition.fresh? now (shelf.read s) =
      if now ≤ s.details.expiration then some (.full (shelf.read s)) else none := rfl
  rw [fresh]
  by_cases lasts : now ≤ s.details.expiration
  · rw [if_pos (decide_eq_true lasts)] at found
    have listed : ∀ name ∈ s.details.groups, (m.store now key s).groups.Lists name key :=
      fun name hn => GroupIndex.lists_addAll hn (isMember_of_load found hn)
    rw [if_pos lasts, edition?_of_load found]
    exact congrArg some (congrArg _ (GroupIndex.listing_eq_self listed))
  · rw [if_neg (mt of_decide_eq_true lasts)] at found
    rw [if_neg lasts]
    exact edition?_eq_none_iff.2 found

/-- A store replaces the edition of its key, and no other. -/
theorem edition?_store (h : l.IsMap) :
    (l.store now key s).edition? now shelf k =
      if k = key then Edition.fresh? now (shelf.read s) else l.edition? now shelf k := by
  obtain ⟨m, rfl⟩ := h
  by_cases same : k = key
  · subst same
    rw [if_pos rfl]
    exact edition?_store_self m
  · have found := m.load_store now key k s
    rw [if_neg same] at found ⊢
    refine edition?_congr (l := map m) found fun t load name hn => ?_
    have member := isMember_of_load (l := map (m.store now key s)) (found.trans load) hn
    exact (GroupIndex.lists_addAll_iff member).trans (or_iff_left fun h => same h.2)

theorem edition?_delete (h : l.IsMap) :
    (l.delete key).edition? now shelf k = if k = key then none else l.edition? now shelf k := by
  obtain ⟨m, rfl⟩ := h
  have found := m.load_delete now key k
  by_cases same : k = key
  · rw [if_pos same] at found ⊢
    exact edition?_eq_none_iff.2 found
  · rw [if_neg same] at found ⊢
    exact edition?_congr found fun _ _ _ _ => Iff.rfl

/-- A group that is deleted takes along the keys whose version is listed under it. -/
theorem mem_take_iff_listed (load : (l.load now k).1 = some t) :
    k ∈ (l.groups.take name now (l.members now)).1 ↔
      name ∈ l.groups.listing k t.details.groups := by
  rw [GroupIndex.mem_take_iff, GroupIndex.mem_listing]
  constructor
  · rintro ⟨lists, member⟩
    obtain ⟨t', load', hn⟩ := isMember_iff.1 member
    obtain rfl : t = t' := Option.some.inj (load.symm.trans load')
    exact ⟨List.contains_iff_mem.1 hn, lists⟩
  · rintro ⟨hn, lists⟩
    exact ⟨lists, isMember_of_load load hn⟩

/-- A version that stays because it is not listed under the group keeps its other listings. -/
theorem lists_deleteGroup {m : MapStore} {other : String}
    (load : ((map m).load now k).1 = some t)
    (unlisted : name ∉ (map m).groups.listing k t.details.groups) (hn : other ∈ t.details.groups) :
    (map (m.deleteGroup now name)).groups.Lists other k ↔ (map m).groups.Lists other k := by
  by_cases ne : other = name
  · subst ne
    refine iff_of_false GroupIndex.not_lists_take fun lists => ?_
    exact unlisted (GroupIndex.mem_listing.2 ⟨hn, lists⟩)
  · exact GroupIndex.lists_take_iff (isMember_of_load load hn) ne

/-- The deletion of a group takes away what is listed under it. -/
theorem edition?_deleteGroup (h : l.IsMap) :
    (l.deleteGroup now name).edition? now shelf k =
      (l.edition? now shelf k).filter fun e => name ∉ e.listed := by
  obtain ⟨m, rfl⟩ := h
  cases load : ((map m).load now k).1 with
  | none =>
    have gone : (((map m).deleteGroup now name).load now k).1 = none := by
      rw [Option.eq_none_iff_forall_ne_some]
      intro t ht
      have before := fewer_deleteGroup now name (map m) now k t ht
      rw [load] at before
      cases before
    rw [edition?_eq_none_iff.2 load]
    exact edition?_eq_none_iff.2 gone
  | some t =>
    have after := stored?_deleteGroup now name k (map m)
    by_cases listed : name ∈ (map m).groups.listing k t.details.groups
    · rw [if_pos ((mem_take_iff_listed load).2 listed)] at after
      have gone : (((map m).deleteGroup now name).load now k).1 = none := by
        rw [Option.eq_none_iff_forall_ne_some]
        intro t ht
        rw [stored?_of_load ht] at after
        cases after
      rw [edition?_of_load load, Option.filter_some, if_neg (by simpa using listed)]
      exact edition?_eq_none_iff.2 gone
    · rw [if_neg (mt (mem_take_iff_listed load).1 listed)] at after
      have kept : ((map m).edition? now shelf k).filter (fun e => name ∉ e.listed) =
          (map m).edition? now shelf k := by
        rw [edition?_of_load load, Option.filter_some, if_pos (by simpa using listed)]
      rw [kept]
      refine edition?_congr (MapStore.load_congr after) fun t' load' other hn => ?_
      obtain rfl : t = t' := Option.some.inj (load.symm.trans load')
      exact lists_deleteGroup load listed hn

theorem edition?_later {later : Instant} (h : l.IsMap) (le : now ≤ later) :
    l.edition? later shelf k =
      (l.edition? now shelf k).filter fun e => later ≤ e.representation.details.expiration := by
  obtain ⟨m, rfl⟩ := h
  unfold edition?
  rw [show ((map m).load later k).1 = _ from m.load_later now k le]
  show ((m.load now k).1.filter _).map _ = ((m.load now k).1.map _).filter _
  cases (m.load now k).1 with
  | none => rfl
  | some t =>
    simp only [Option.map_some, Option.filter_some, Shelf.read]
    split <;> rfl

theorem IsMap.store (h : l.IsMap) : (l.store now key s).IsMap := by
  obtain ⟨m, rfl⟩ := h
  exact ⟨_, rfl⟩

theorem IsMap.upkeep {kept : Leaf} (h : l.IsMap) (upkeep : Upkeep shelf now l kept) :
    kept.IsMap := by
  cases upkeep with
  | chore chore =>
    obtain ⟨m, rfl⟩ := h
    obtain ⟨m', rfl, -⟩ := chore.of_map rfl
    exact ⟨m', rfl⟩
  | load | delete | deleteGroup =>
    obtain ⟨m, rfl⟩ := h
    exact ⟨_, rfl⟩

/-- The chores of a map store make no difference to what it has. -/
theorem Chore.edition?_eq {done : Leaf} (chore : Chore shelf now l done) (h : l.IsMap) :
    done.edition? now shelf k = l.edition? now shelf k := by
  induction chore with
  | refl => rfl
  | trans chore _ first second => exact (second (h.upkeep (.chore chore))).trans (first h)
  | look name l =>
    obtain ⟨m, rfl⟩ := h
    refine edition?_congr (l := map m) (MapStore.load_congr rfl) fun t load other hn => ?_
    exact GroupIndex.lists_prune_iff (isMember_of_load load hn)
  | sweep l =>
    obtain ⟨m, rfl⟩ := h
    have found := m.load_sweep now k
    refine edition?_congr (l := map m) found fun t load other hn => ?_
    exact GroupIndex.lists_pruneAll_iff
      (isMember_of_load (l := map (m.sweep now).2) (found.trans load) hn)
  | evict keep l =>
    obtain ⟨m, rfl⟩ := h
    rfl
  | drain l =>
    obtain ⟨m, rfl⟩ := h
    rfl
  | setWorker worker l =>
    obtain ⟨m, rfl⟩ := h
    exact edition?_congr (l := map m) (MapStore.load_congr rfl) fun _ _ _ _ => Iff.rfl

end Leaf
end VariantCache.Store
