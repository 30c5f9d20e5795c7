import VariantCache.Proofs.Store.Versions

/-!
# The index of a store lists every version that can be loaded

The index of groups lists every version that a load would give under each of its groups
(`Indexed`), whatever happens to the store (`Indexed.store`, `Indexed.upkeep`). So the
deletion of a group leaves no version of it to be loaded (`not_inGroup_of_deleteGroup`),
and it removes nothing else (`load_deleteGroup`).
-/

namespace VariantCache.Store.Leaf

variable {now : Instant} {k key : CacheKey} {s t : Shared} {shelf : Shelf} {l : Leaf}
  {name : String}

/-- Every version that a load would give is listed under its groups. -/
def Indexed (now : Instant) (l : Leaf) : Prop := l.groups.Covers now (l.members now)

/-- What leaves the index alone and brings nothing in. -/
theorem Indexed.of_fewer {fewer : Leaf} {later : Instant} (h : l.Indexed now)
    (same : fewer.groups = l.groups)
    (loads : ∀ k t, (fewer.load later k).1 = some t → (l.load now k).1 = some t) :
    fewer.Indexed later := by
  unfold Indexed
  rw [same]
  refine GroupIndex.Covers.mono h fun name k hm => ?_
  obtain ⟨t, ht, hg⟩ := isMember_iff.1 hm
  exact isMember_iff.2 ⟨t, loads k t ht, hg⟩

theorem IsNew.indexed (h : l.IsNew) (now : Instant) : l.Indexed now := by
  cases l with
  | map m =>
    obtain ⟨period, rfl⟩ := h
    exact GroupIndex.covers_empty now fun _ _ => rfl
  | bounded b =>
    obtain ⟨limits, period, rfl⟩ := h
    exact GroupIndex.covers_empty now fun _ _ => rfl

theorem Indexed.at_later {later : Instant} (h : l.Indexed now) (le : now ≤ later) :
    l.Indexed later :=
  h.of_fewer rfl fun _ _ => load_of_le le

theorem groups_load (now : Instant) (key : CacheKey) (l : Leaf) :
    (l.load now key).2.groups = l.groups := by
  cases l with
  | bounded b => rfl
  | map m =>
    show (m.load now key).2.groups = m.groups
    unfold MapStore.load
    split
    · rfl
    · split <;> rfl

theorem Indexed.load (h : l.Indexed now) : (l.load now key).2.Indexed now :=
  h.of_fewer (groups_load now key l) (fewer_load now key l now)

theorem Indexed.delete (h : l.Indexed now) : (l.delete key).Indexed now :=
  h.of_fewer (by cases l <;> rfl) (fewer_delete key l now)

theorem Indexed.evict {keep : CacheKey → Held → Bool} (h : l.Indexed now) :
    (l.evict keep).Indexed now :=
  h.of_fewer (by cases l <;> rfl) (fewer_evict keep l now)

theorem Indexed.setWorker {worker : Worker} (h : l.Indexed now) :
    (l.setWorker worker).Indexed now :=
  h.of_fewer (by cases l <;> rfl) (fewer_setWorker worker l now)

/-- Entering a version into its groups makes up for one that is new. -/
theorem covers_entered {old : Leaf} (new : Leaf) (h : old.Indexed now)
    (entry : ∀ t, (new.load now key).1 = some t → t = s)
    (others : ∀ k, k ≠ key → (new.load now k).1 = (old.load now k).1) :
    (old.groups.addAll s.details.groups key s.details.expiration now (new.members now)).Covers now
      (new.members now) := by
  refine GroupIndex.covers_addAll (fun name k hk hm => ?_) fun name hm => ?_
  · obtain ⟨t, ht, hg⟩ := isMember_iff.1 hm
    rw [others k hk] at ht
    exact h name k (isMember_iff.2 ⟨t, ht, hg⟩)
  · obtain ⟨t, ht, hg⟩ := isMember_iff.1 hm
    obtain rfl := entry t ht
    exact List.contains_iff_mem.1 hg

theorem Indexed.store (h : l.Indexed now) : (l.store now key s).Indexed now := by
  cases l with
  | map m =>
    refine covers_entered (map (m.store now key s)) h (fun t ht => ?_) fun k hk => ?_
    · have hs := (MapStore.load_eq_some_iff.1 ht).1
      rw [MapStore.get?_store, if_pos rfl] at hs
      exact (Option.some.inj hs).symm
    · exact MapStore.load_congr (by rw [MapStore.get?_store, if_neg hk])
  | bounded b =>
    -- The entries stay as they are until the writer comes.
    refine h.of_fewer (BoundedStore.groups_store b key s) fun k t ht => ?_
    rw [← ht]
    exact BoundedStore.get?_congr (by rw [BoundedStore.entries_store])

theorem indexed_apply {b : BoundedStore} (h : (bounded b).Indexed now) (entry : CacheKey × Shared) :
    (bounded (b.apply shelf now entry)).Indexed now := by
  obtain ⟨key, s⟩ := entry
  refine covers_entered (bounded (b.apply shelf now (key, s))) h (fun t ht => ?_) fun k hk => ?_
  · have hs := (BoundedStore.get?_eq_some_iff.1 ht).1
    rw [BoundedStore.get?_apply, if_pos rfl] at hs
    exact (Option.some.inj hs).symm
  · exact BoundedStore.get?_congr (by rw [BoundedStore.get?_apply, if_neg hk])

theorem Indexed.drain (h : l.Indexed now) : (l.drain shelf now).Indexed now := by
  cases l with
  | map m => exact h
  | bounded b =>
    have general :
        ∀ (queue : List (CacheKey × Shared)) (b : BoundedStore), (bounded b).Indexed now →
        (bounded (queue.foldl (fun b entry => b.apply shelf now entry) b)).Indexed now := by
      intro queue
      induction queue with
      | nil => exact fun b h => h
      | cons entry queue ih => exact fun b h => ih _ (indexed_apply h entry)
    exact general b.queue _ (h.of_fewer rfl fun _ _ ht => ht)

theorem Indexed.sweep (h : l.Indexed now) : (l.sweep now).Indexed now := by
  cases l with
  | map m =>
    have fresh :
        (map { m with entries := m.entries.filter fun _ s => !s.details.expiredAt now }).Indexed
        now := h.of_fewer rfl (fewer_map (fun k t ht => Table.get?_of_filter ht) now)
    exact GroupIndex.Covers.pruneAll fresh
  | bounded b =>
    have settled : (bounded b.settle).Indexed now :=
      h.of_fewer rfl (fewer_bounded (fun k t ht => Table.get?_of_filter ht) now)
    exact GroupIndex.Covers.pruneAll settled

theorem Indexed.look (h : l.Indexed now) : (l.look now name).Indexed now := by
  cases l with
  | map m => exact fun other k hm => (h other k hm).prune hm
  | bounded b => exact h

/-! ### Deleting a group -/

/-- The entry of a key goes when the key is one of the members that are taken. -/
theorem stored?_deleteGroup (now : Instant) (name : String) (k : CacheKey) (l : Leaf) :
    (l.deleteGroup now name).stored? k =
      if k ∈ (l.groups.take name now (l.members now)).1 then none else l.stored? k := by
  cases l with
  | map m => exact MapStore.get?_deleteGroup m now name k
  | bounded b =>
    show ((b.deleteGroup now name).entries.get? k).map (·.shared) = _
    rw [BoundedStore.get?_deleteGroup, apply_ite (Option.map _)]
    rfl

/-- **No version of a deleted group can be loaded any more.** -/
theorem not_inGroup_of_deleteGroup (h : l.Indexed now)
    (load : ((l.deleteGroup now name).load now k).1 = some t) : t.details.inGroup name = false := by
  have before : (l.load now k).1 = some t := fewer_deleteGroup now name l now k t load
  have kept := stored?_of_load load
  rw [stored?_deleteGroup] at kept
  split at kept
  · cases kept
  · next hk =>
    refine Bool.eq_false_iff.2 fun hg => hk (GroupIndex.mem_take_iff.2 ⟨?_, ?_⟩)
    · exact h name k (isMember_iff.2 ⟨t, before, hg⟩)
    · exact isMember_iff.2 ⟨t, before, hg⟩

/-- Keys whose version stands in other groups are not affected. -/
theorem load_deleteGroup (h : ∀ s, l.stored? k = some s → s.details.inGroup name = false) :
    ((l.deleteGroup now name).load now k).1 = (l.load now k).1 := by
  have hk : k ∉ (l.groups.take name now (l.members now)).1 := fun hk => by
    obtain ⟨s, hs, hg⟩ := isMember_iff.1 (GroupIndex.mem_take_iff.1 hk).2
    rw [h s (stored?_of_load hs)] at hg
    cases hg
  have same : (l.deleteGroup now name).stored? k = l.stored? k := by
    rw [stored?_deleteGroup, if_neg hk]
  cases l with
  | map m => exact MapStore.load_congr same
  | bounded b => exact BoundedStore.get?_congr same

/-- **The deletion of a group takes away what a load would have found of it, and nothing else.** -/
theorem Indexed.load_deleteGroup (h : l.Indexed now) :
    ((l.deleteGroup now name).load now k).1 =
      ((l.load now k).1).filter fun s => !s.details.inGroup name := by
  ext t
  rw [Option.filter_eq_some_iff]
  constructor
  · intro load
    refine ⟨fewer_deleteGroup now name l now k t load, ?_⟩
    rw [not_inGroup_of_deleteGroup h load]
    rfl
  · rintro ⟨load, other⟩
    have stored := stored?_of_load load
    rw [Leaf.load_deleteGroup fun s hs => ?_, load]
    obtain rfl : t = s := Option.some.inj (stored.symm.trans hs)
    simpa using other

theorem Indexed.deleteGroup (h : l.Indexed now) : (l.deleteGroup now name).Indexed now := by
  have same : (l.deleteGroup now name).groups = (l.groups.take name now (l.members now)).2 := by
    cases l <;> rfl
  intro other k hm
  obtain ⟨t, ht, hg⟩ := isMember_iff.1 hm
  have ne : other ≠ name := by
    rintro rfl
    rw [not_inGroup_of_deleteGroup h ht] at hg
    cases hg
  have old : IsMember (l.members now) now other k :=
    isMember_iff.2 ⟨t, fewer_deleteGroup now name l now k t ht, hg⟩
  rw [same]
  exact (h other k old).take old ne

theorem Indexed.chore {done : Leaf} (h : l.Indexed now) (chore : Chore shelf now l done) :
    done.Indexed now := by
  induction chore with
  | refl => exact h
  | trans _ _ first second => exact second (first h)
  | look => exact h.look
  | sweep => exact h.sweep
  | evict => exact h.evict
  | drain => exact h.drain
  | setWorker => exact h.setWorker

/-- **Upkeep does not make the index miss a version.** -/
theorem Indexed.upkeep {kept : Leaf} (h : l.Indexed now) (upkeep : Upkeep shelf now l kept) :
    kept.Indexed now := by
  cases upkeep with
  | chore chore => exact h.chore chore
  | load => exact h.load
  | delete => exact h.delete
  | deleteGroup => exact h.deleteGroup

end VariantCache.Store.Leaf
