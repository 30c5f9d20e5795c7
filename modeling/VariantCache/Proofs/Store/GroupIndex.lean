import VariantCache.Store.Groups

/-!
# The index of groups finds every fresh member

The index of a store is kept up lazily, so it may list keys that are gone or stand in
other groups by now. What matters is the other direction: a fresh member of a group is
listed under it (`Covers`). Pruning leaves out nothing that is a fresh member
(`Lists.prune`), adding a key to its groups makes up for a new entry (`covers_addAll`),
and taking a group gives exactly its fresh members (`mem_take_iff`).
-/

namespace VariantCache.Store

/-- A key is stored in a group, and fresh at a date. -/
def IsMember (members : Membership) (now : Instant) (name : String) (key : CacheKey) : Prop :=
  ∃ date, members name key = some date ∧ now ≤ date

theorem memberExpiration?_isSome {name : String} {now : Instant} {members : Membership}
    {key : CacheKey} :
    (Group.memberExpiration? name now members key).isSome ↔ IsMember members now name key := by
  rw [Option.isSome_iff_exists]
  exact exists_congr fun date => by
    rw [Group.memberExpiration?, Option.filter_eq_some_iff, decide_eq_true_iff]

theorem latest?_isSome {dates : List Instant} (h : dates ≠ []) : (Group.latest? dates).isSome := by
  cases dates with
  | nil => exact absurd rfl h
  | cons => rfl

/-- A pruned group has the keys that are fresh members. -/
theorem mem_keys_of_prune? {group pruned : Group} {name : String} {now : Instant}
    {members : Membership} (h : group.prune? name now members = some pruned) (key : CacheKey) :
    key ∈ pruned.keys ↔ key ∈ group.keys ∧ IsMember members now name key := by
  unfold Group.prune? at h
  obtain ⟨_, -, rfl⟩ := Option.map_eq_some_iff.1 h
  rw [List.mem_filter, memberExpiration?_isSome]

/-- A group with a fresh member is not dropped. -/
theorem exists_prune? {group : Group} {name : String} {now : Instant} {members : Membership}
    {key : CacheKey} (hk : key ∈ group.keys) (hm : IsMember members now name key) :
    ∃ pruned, group.prune? name now members = some pruned := by
  obtain ⟨date, hd⟩ := Option.isSome_iff_exists.1 (memberExpiration?_isSome.2 hm)
  have present : date ∈ group.keys.filterMap (Group.memberExpiration? name now members) :=
    List.mem_filterMap.2 ⟨key, hk, hd⟩
  obtain ⟨latest, hl⟩ := Option.isSome_iff_exists.1 (latest?_isSome (List.ne_nil_of_mem present))
  exact ⟨_, Option.map_eq_some_iff.2 ⟨latest, hl, rfl⟩⟩

namespace GroupIndex

/-- A key is listed under a group. -/
def Lists (index : GroupIndex) (name : String) (key : CacheKey) : Prop :=
  ∃ group, index.get? name = some group ∧ key ∈ group.keys

/-- Every fresh member of a group is listed under it. -/
def Covers (index : GroupIndex) (now : Instant) (members : Membership) : Prop :=
  ∀ name key, IsMember members now name key → index.Lists name key

theorem covers_empty (now : Instant) {members : Membership}
    (h : ∀ name key, members name key = none) :
    Covers .empty now members := by
  rintro name key ⟨date, hd, -⟩
  rw [h] at hd
  cases hd

/-- With fewer fresh members the index is good enough still. -/
theorem Covers.mono {index : GroupIndex} {now later : Instant} {members fewer : Membership}
    (h : index.Covers now members)
    (less : ∀ name key, IsMember fewer later name key → IsMember members now name key) :
    index.Covers later fewer := fun name key hm => h name key (less name key hm)

/-! ### Pruning -/

theorem Lists.prune {index : GroupIndex} {name other : String} {now : Instant}
    {members : Membership} {key : CacheKey} (h : index.Lists other key)
    (hm : IsMember members now other key) :
    (index.prune name now members).Lists other key := by
  obtain ⟨group, hg, hk⟩ := h
  unfold GroupIndex.prune
  by_cases he : other = name
  · subst he
    obtain ⟨pruned, hp⟩ := exists_prune? hk hm
    rw [hg]
    simp only [hp]
    exact ⟨pruned, by rw [Table.get?_insert, if_pos rfl], (mem_keys_of_prune? hp key).2 ⟨hk, hm⟩⟩
  · refine ⟨group, ?_, hk⟩
    cases index.get? name with
    | none => exact hg
    | some g =>
      simp only
      cases g.prune? name now members with
      | none => simp only; rw [Table.get?_erase, if_neg he, hg]
      | some p => simp only; rw [Table.get?_insert, if_neg he, hg]

theorem Covers.pruneAll {index : GroupIndex} {now : Instant} {members : Membership}
    (h : index.Covers now members) : (index.pruneAll now members).Covers now members := by
  intro name key hm
  obtain ⟨group, hg, hk⟩ := h name key hm
  obtain ⟨pruned, hp⟩ := exists_prune? hk hm
  refine ⟨pruned, ?_, (mem_keys_of_prune? hp key).2 ⟨hk, hm⟩⟩
  unfold GroupIndex.pruneAll
  rw [Table.get?_filterMap, hg]
  exact hp

/-! ### Adding a key to its groups -/

theorem lists_add {index : GroupIndex} {name : String} {key : CacheKey} (expiration : Instant)
    {now : Instant} {members : Membership} (hm : IsMember members now name key) :
    (index.add name key expiration now members).Lists name key := by
  unfold GroupIndex.add
  refine Lists.prune ⟨_, by rw [Table.get?_insert, if_pos rfl], ?_⟩ hm
  simp only
  split
  · assumption
  · simp

theorem Lists.add {index : GroupIndex} {name other : String} {key k : CacheKey}
    {expiration now : Instant} {members : Membership} (h : index.Lists other k)
    (hm : IsMember members now other k) :
    (index.add name key expiration now members).Lists other k := by
  unfold GroupIndex.add
  refine Lists.prune ?_ hm
  obtain ⟨group, hg, hk⟩ := h
  by_cases he : other = name
  · subst he
    refine ⟨_, by rw [Table.get?_insert, if_pos rfl], ?_⟩
    simp only [hg, Option.getD_some]
    split
    · exact hk
    · exact List.mem_append_left _ hk
  · exact ⟨group, by rw [Table.get?_insert, if_neg he, hg], hk⟩

theorem Lists.addAll {index : GroupIndex} {other : String} {k : CacheKey} {names : List String}
    {key : CacheKey} {expiration now : Instant} {members : Membership} (h : index.Lists other k)
    (hm : IsMember members now other k) :
    (index.addAll names key expiration now members).Lists other k := by
  unfold GroupIndex.addAll
  induction names generalizing index with
  | nil => exact h
  | cons name names ih => exact ih (h.add hm)

theorem lists_addAll {index : GroupIndex} {name : String} {names : List String} {key : CacheKey}
    {expiration now : Instant} {members : Membership} (h : name ∈ names)
    (hm : IsMember members now name key) :
    (index.addAll names key expiration now members).Lists name key := by
  induction names generalizing index with
  | nil => cases h
  | cons first names ih =>
    rcases List.mem_cons.1 h with rfl | h
    · exact (lists_add expiration hm).addAll hm
    · exact ih h

/-- Adding a key to the groups it stands in makes up for what is new. -/
theorem covers_addAll {index : GroupIndex} {names : List String} {key : CacheKey}
    {expiration now : Instant} {members : Membership}
    (old : ∀ name k, k ≠ key → IsMember members now name k → index.Lists name k)
    (new : ∀ name, IsMember members now name key → name ∈ names) :
    (index.addAll names key expiration now members).Covers now members := by
  intro name k hm
  by_cases hk : k = key
  · subst hk
    exact lists_addAll (new name hm) hm
  · exact (old name k hk hm).addAll hm

/-! ### Taking a group -/

/-- The keys that are taken are the fresh members that were listed. -/
theorem mem_take_iff {index : GroupIndex} {name : String} {now : Instant} {members : Membership}
    {key : CacheKey} :
    key ∈ (index.take name now members).1 ↔
      index.Lists name key ∧ IsMember members now name key := by
  unfold GroupIndex.take GroupIndex.prune Lists
  cases hg : index.get? name with
  | none => simp [hg]
  | some group =>
    simp only [Option.some.injEq, exists_eq_left']
    cases hp : group.prune? name now members with
    | none =>
      simp only [Table.get?_erase, if_true, Option.map_none, Option.getD_none, List.not_mem_nil,
        false_iff]
      rintro ⟨hk, hm⟩
      obtain ⟨pruned, h⟩ := exists_prune? hk hm
      rw [hp] at h
      cases h
    | some pruned =>
      simp only [Table.get?_insert, if_true, Option.map_some, Option.getD_some]
      exact mem_keys_of_prune? hp key

/-- Taking a group leaves the others listed. -/
theorem Lists.take {index : GroupIndex} {name other : String} {now : Instant}
    {members : Membership} {key : CacheKey} (h : index.Lists other key)
    (hm : IsMember members now other key) (ne : other ≠ name) :
    (index.take name now members).2.Lists other key := by
  obtain ⟨group, hg, hk⟩ : (index.prune name now members).Lists other key := h.prune hm
  exact ⟨group, by rw [GroupIndex.take, Table.get?_erase, if_neg ne, hg], hk⟩

end GroupIndex
end VariantCache.Store
