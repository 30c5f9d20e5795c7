import Mathlib.Data.List.Nodup
import VariantCache.Proofs.Store.Grouping

/-!
# The members of a group, counted

The index of groups is a hint, but what a look at a group gives is exact. No group lists a
key twice, and none is kept without keys (`Tidy`), whatever happens to the index
(`Tidy.addAll`, `Tidy.pruneAll`, `Tidy.take`). When moreover the index covers the fresh
members, a pruned group has as keys the fresh members, each once
(`mem_keys_of_get?_prune`), and as date the latest one of theirs (`expiration_of_get?_prune`).
For a map store the fresh members are entries of its table, so a look at a group counts
them (`groupLength_eq`) and finds the last of their dates (`groupExpiration?_eq_some_iff`).
-/

namespace VariantCache

/-! ### The latest of some dates -/

namespace Instant

theorem le_antisymm {a b : Instant} (h : a ≤ b) (h' : b ≤ a) : a = b := by
  by_contra ne
  exact not_lt.2 h' (lt_of_le_of_ne h ne)

theorem le_later_right (a b : Instant) : b ≤ a.later b := by
  unfold later
  split
  · exact le_refl b
  · next h => exact le_of_lt (Int.not_le.1 h)

theorem later_eq_or (a b : Instant) : a.later b = a ∨ a.later b = b := by
  unfold later
  split
  · exact .inr rfl
  · exact .inl rfl

end Instant

namespace Store

open Instant in
theorem mem_foldl_later (first : Instant) (rest : List Instant) :
    rest.foldl later first ∈ first :: rest := by
  induction rest generalizing first with
  | nil => exact List.mem_cons_self
  | cons date rest ih =>
    rw [List.foldl_cons]
    rcases List.mem_cons.1 (ih (first.later date)) with h | h
    · rw [h]
      rcases later_eq_or first date with h | h
      · rw [h]
        exact List.mem_cons_self
      · rw [h]
        exact List.mem_cons_of_mem _ List.mem_cons_self
    · exact List.mem_cons_of_mem _ (List.mem_cons_of_mem _ h)

open Instant in
theorem le_foldl_later (first : Instant) (rest : List Instant) :
    ∀ date ∈ first :: rest, date ≤ rest.foldl later first := by
  induction rest generalizing first with
  | nil =>
    intro date hd
    rw [List.mem_singleton.1 hd]
    exact le_refl first
  | cons second rest ih =>
    intro date hd
    rw [List.foldl_cons]
    have above := ih (first.later second) _ List.mem_cons_self
    rcases List.mem_cons.1 hd with rfl | hd
    · exact le_trans (le_later _ _) above
    · rcases List.mem_cons.1 hd with rfl | hd
      · exact le_trans (le_later_right _ _) above
      · exact ih _ date (List.mem_cons_of_mem _ hd)

/-- The latest of some dates is the one of them that no other comes after. -/
theorem latest?_eq_some_iff {dates : List Instant} {latest : Instant} :
    Group.latest? dates = some latest ↔ latest ∈ dates ∧ ∀ date ∈ dates, date ≤ latest := by
  cases dates with
  | nil => simp [Group.latest?]
  | cons first rest =>
    rw [Group.latest?, Option.some.injEq]
    constructor
    · rintro rfl
      exact ⟨mem_foldl_later first rest, le_foldl_later first rest⟩
    · rintro ⟨mem, above⟩
      exact Instant.le_antisymm (above _ (mem_foldl_later first rest))
        (le_foldl_later first rest _ mem)

/-! ### Groups in good order -/

/-- A group in good order has keys, and none of them twice. -/
structure Group.IsTidy (group : Group) : Prop where
  nodup : group.keys.Nodup
  nonempty : group.keys ≠ []

section

variable {group pruned : Group} {name other : String} {now : Instant} {members : Membership}
  {key : CacheKey}

/-- What is kept of a group has a key, or it would have been dropped. -/
theorem keys_ne_nil_of_prune? (h : group.prune? name now members = some pruned) :
    pruned.keys ≠ [] := by
  unfold Group.prune? at h
  obtain ⟨latest, hl, rfl⟩ := Option.map_eq_some_iff.1 h
  obtain ⟨key, hk, hd⟩ := List.mem_filterMap.1 (latest?_eq_some_iff.1 hl).1
  have kept : key ∈ group.keys.filter fun key =>
      (Group.memberExpiration? name now members key).isSome :=
    List.mem_filter.2 ⟨hk, Option.isSome_iff_exists.2 ⟨latest, hd⟩⟩
  exact List.ne_nil_of_mem kept

theorem Group.IsTidy.prune? (tidy : group.IsTidy)
    (h : group.prune? name now members = some pruned) : pruned.IsTidy where
  nodup := by
    unfold Group.prune? at h
    obtain ⟨_, -, rfl⟩ := Option.map_eq_some_iff.1 h
    exact tidy.nodup.filter _
  nonempty := keys_ne_nil_of_prune? h

/-- The date of a pruned group is the latest one at which a fresh member expires. -/
theorem expiration_of_prune? (h : group.prune? name now members = some pruned) (date : Instant) :
    date = pruned.expiration ↔
      (∃ key ∈ group.keys, Group.memberExpiration? name now members key = some date) ∧
      ∀ key ∈ group.keys, ∀ d,
        Group.memberExpiration? name now members key = some d → d ≤ date := by
  unfold Group.prune? at h
  obtain ⟨latest, hl, rfl⟩ := Option.map_eq_some_iff.1 h
  have iff : Group.latest? (group.keys.filterMap (Group.memberExpiration? name now members)) =
      some date ↔ _ := latest?_eq_some_iff
  rw [hl, Option.some.injEq, eq_comm] at iff
  rw [iff]
  simp only [List.mem_filterMap]
  refine and_congr Iff.rfl ⟨fun h key hk d hd => h d ⟨key, hk, hd⟩, ?_⟩
  rintro h d ⟨key, hk, hd⟩
  exact h key hk d hd

namespace GroupIndex

variable {index : GroupIndex} {expiration : Instant}

/-- Every group of the index is in good order. -/
def Tidy (index : GroupIndex) : Prop :=
  ∀ name group, index.get? name = some group → group.IsTidy

theorem tidy_empty : Tidy .empty := by
  intro name group h
  cases h

theorem get?_prune_self (index : GroupIndex) (name : String) (now : Instant)
    (members : Membership) :
    (index.prune name now members).get? name =
      (index.get? name).bind fun group => group.prune? name now members := by
  unfold GroupIndex.prune
  cases hg : index.get? name with
  | none => exact hg
  | some group =>
    simp only [Option.bind_some]
    cases hp : group.prune? name now members with
    | none => simp [Table.get?_erase]
    | some pruned => simp [Table.get?_insert]

theorem get?_prune_of_ne (ne : other ≠ name) :
    (index.prune name now members).get? other = index.get? other := by
  unfold GroupIndex.prune
  cases index.get? name with
  | none => rfl
  | some group =>
    simp only
    cases group.prune? name now members with
    | none => simp [Table.get?_erase, ne]
    | some pruned => simp [Table.get?_insert, ne]

theorem Tidy.prune (h : index.Tidy) : (index.prune name now members).Tidy := by
  intro other pruned hp
  by_cases he : other = name
  · subst he
    rw [get?_prune_self] at hp
    obtain ⟨group, hg, hp⟩ := Option.bind_eq_some_iff.1 hp
    exact (h other group hg).prune? hp
  · rw [get?_prune_of_ne he] at hp
    exact h other pruned hp

theorem Tidy.pruneAll (h : index.Tidy) : (index.pruneAll now members).Tidy := by
  intro name pruned hp
  unfold GroupIndex.pruneAll at hp
  rw [Table.get?_filterMap] at hp
  obtain ⟨group, hg, hp⟩ := Option.bind_eq_some_iff.1 hp
  exact (h name group hg).prune? hp

theorem Tidy.erase (h : index.Tidy) : Tidy (index.erase name) :=
  fun other group hg => h other group (Table.get?_of_erase hg)

theorem Tidy.insert (h : index.Tidy) (tidy : group.IsTidy) : Tidy (index.insert name group) := by
  intro other g hg
  rw [Table.get?_insert] at hg
  split at hg
  · obtain rfl := Option.some.inj hg
    exact tidy
  · exact h other g hg

/-- A key is added once, and a group that it is added to has a key. -/
theorem Tidy.add (h : index.Tidy) : (index.add name key expiration now members).Tidy := by
  have nodup : ((index.get? name).getD ⟨[], expiration⟩).keys.Nodup := by
    cases hg : index.get? name with
    | none => exact List.nodup_nil
    | some group => exact (h name group hg).nodup
  unfold GroupIndex.add
  refine (h.insert ?_).prune
  split
  · next mem => exact ⟨nodup, List.ne_nil_of_mem mem⟩
  · next absent =>
    refine ⟨?_, by simp⟩
    refine List.nodup_append.2 ⟨nodup, List.nodup_singleton key, ?_⟩
    rintro a ha b hb rfl
    rw [List.mem_singleton.1 hb] at ha
    exact absent ha

theorem Tidy.addAll (h : index.Tidy) {names : List String} :
    (index.addAll names key expiration now members).Tidy := by
  unfold GroupIndex.addAll
  induction names generalizing index with
  | nil => exact h
  | cons name names ih => exact ih h.add

theorem Tidy.take (h : index.Tidy) : (index.take name now members).2.Tidy := by
  unfold GroupIndex.take
  exact h.prune.erase

/-! ### Groups that are looked at -/

/-- **A group that is looked at lists its fresh members** and nothing else, when the index covers
them. -/
theorem mem_keys_of_get?_prune (covers : index.Covers now members)
    (h : (index.prune name now members).get? name = some pruned) (key : CacheKey) :
    key ∈ pruned.keys ↔ IsMember members now name key := by
  rw [get?_prune_self] at h
  obtain ⟨group, hg, hp⟩ := Option.bind_eq_some_iff.1 h
  rw [mem_keys_of_prune? hp]
  refine ⟨And.right, fun hm => ⟨?_, hm⟩⟩
  obtain ⟨group', hg', hk⟩ := covers name key hm
  obtain rfl := Option.some.inj (hg.symm.trans hg')
  exact hk

/-- A group that is looked at is there when it has a fresh member, and only then. -/
theorem get?_prune_eq_none_iff (covers : index.Covers now members) :
    (index.prune name now members).get? name = none ↔ ∀ key, ¬ IsMember members now name key := by
  constructor
  · intro gone key hm
    have listed : (index.prune name now members).Lists name key := (covers name key hm).prune hm
    obtain ⟨group, hg, -⟩ := listed
    rw [gone] at hg
    cases hg
  · intro nobody
    refine Option.eq_none_iff_forall_not_mem.2 fun pruned hp => ?_
    have hp : (index.prune name now members).get? name = some pruned := hp
    obtain ⟨group, hg, kept⟩ := Option.bind_eq_some_iff.1 ((get?_prune_self ..).symm.trans hp)
    obtain ⟨key, hk⟩ := List.exists_mem_of_ne_nil _ (keys_ne_nil_of_prune? kept)
    exact nobody key ((mem_keys_of_get?_prune covers hp key).1 hk)

/-- The date of a group that is looked at is the latest one at which a fresh member expires. -/
theorem expiration_of_get?_prune (covers : index.Covers now members)
    (h : (index.prune name now members).get? name = some pruned) (date : Instant) :
    date = pruned.expiration ↔
      (∃ key, Group.memberExpiration? name now members key = some date) ∧
      ∀ key d, Group.memberExpiration? name now members key = some d → d ≤ date := by
  rw [get?_prune_self] at h
  obtain ⟨group, hg, hp⟩ := Option.bind_eq_some_iff.1 h
  have listed : ∀ {key d}, Group.memberExpiration? name now members key = some d →
      key ∈ group.keys := by
    intro key d hd
    have hm := memberExpiration?_isSome.1 (Option.isSome_iff_exists.2 ⟨d, hd⟩)
    obtain ⟨group', hg', hk⟩ := covers name key hm
    obtain rfl := Option.some.inj (hg.symm.trans hg')
    exact hk
  rw [expiration_of_prune? hp]
  constructor
  · rintro ⟨⟨key, -, hd⟩, above⟩
    exact ⟨⟨key, hd⟩, fun key d hd => above key (listed hd) d hd⟩
  · rintro ⟨⟨key, hd⟩, above⟩
    exact ⟨⟨key, listed hd, hd⟩, fun key _ d hd => above key d hd⟩

/-- When every group was pruned, those are left that have a fresh member. -/
theorem isSome_get?_pruneAll_iff (covers : index.Covers now members) :
    ((index.pruneAll now members).get? name).isSome ↔ ∃ key, IsMember members now name key := by
  unfold GroupIndex.pruneAll
  rw [Table.get?_filterMap, Option.isSome_iff_exists]
  constructor
  · rintro ⟨pruned, hp⟩
    obtain ⟨group, -, hp⟩ := Option.bind_eq_some_iff.1 hp
    obtain ⟨key, hk⟩ := List.exists_mem_of_ne_nil _ (keys_ne_nil_of_prune? hp)
    exact ⟨key, ((mem_keys_of_prune? hp key).1 hk).2⟩
  · rintro ⟨key, hm⟩
    obtain ⟨group, hg, hk⟩ := covers name key hm
    obtain ⟨pruned, hp⟩ := exists_prune? hk hm
    exact ⟨pruned, Option.bind_eq_some_iff.2 ⟨group, hg, hp⟩⟩

end GroupIndex

end

/-! ### Looks at the groups of a map store -/

namespace MapStore

variable {m : MapStore} {now : Instant} {name : String} {key : CacheKey} {s : Shared}

/-- The entries that are fresh and belong to a group. -/
def membersOf (m : MapStore) (now : Instant) (name : String) : List (CacheKey × Shared) :=
  m.entries.entries.filter fun entry =>
    !entry.2.details.expiredAt now && entry.2.details.inGroup name

/-- How many members a look at a group finds. -/
def groupLength (m : MapStore) (now : Instant) (name : String) : Nat :=
  ((m.group now name).1.map (·.keys.length)).getD 0

/-- The date that a look at a group finds, if the group has members. -/
def groupExpiration? (m : MapStore) (now : Instant) (name : String) : Option Instant :=
  (m.group now name).1.map (·.expiration)

theorem mem_membersOf :
    (key, s) ∈ m.membersOf now name ↔
      (m.load now key).1 = some s ∧ s.details.inGroup name = true := by
  rw [membersOf, List.mem_filter, ← Table.get?_eq_some_iff, load_eq_some_iff, Bool.and_eq_true,
    Details.expiredAt, Bool.not_eq_true', decide_eq_false_iff_not, Instant.not_lt, and_assoc]

theorem isMember_iff_mem_membersOf :
    IsMember m.members now name key ↔ ∃ s, (key, s) ∈ m.membersOf now name := by
  simp only [isMember_iff, mem_membersOf]

/-- When a fresh member expires is the date of its entry. -/
theorem memberExpiration?_eq_some_iff {date : Instant} :
    Group.memberExpiration? name now m.members key = some date ↔
      ∃ s, (key, s) ∈ m.membersOf now name ∧ s.details.expiration = date := by
  simp only [Group.memberExpiration?, members, Option.filter_eq_some_iff, Option.map_eq_some_iff,
    mem_membersOf, load_eq_some_iff, decide_eq_true_iff]
  constructor
  · rintro ⟨⟨s, ⟨hs, hg⟩, rfl⟩, fresh⟩
    exact ⟨s, ⟨⟨hs, fresh⟩, hg⟩, rfl⟩
  · rintro ⟨s, ⟨⟨hs, fresh⟩, hg⟩, rfl⟩
    exact ⟨⟨s, ⟨hs, hg⟩, rfl⟩, fresh⟩

/-- No key is among the members of a group twice. -/
theorem nodup_membersOf (m : MapStore) (now : Instant) (name : String) :
    ((m.membersOf now name).map (·.1)).Nodup :=
  m.entries.distinct.sublist (List.filter_sublist.map _)

theorem membersOf_eq_nil_iff :
    m.membersOf now name = [] ↔ ∀ key, ¬ IsMember m.members now name key := by
  simp only [List.eq_nil_iff_forall_not_mem, isMember_iff_mem_membersOf, not_exists, Prod.forall]

variable (covers : m.groups.Covers now m.members) (tidy : m.groups.Tidy)

include covers in
theorem group_eq_none_iff : (m.group now name).1 = none ↔ m.membersOf now name = [] := by
  rw [membersOf_eq_nil_iff]
  exact GroupIndex.get?_prune_eq_none_iff covers

include covers tidy in
/-- **A look at a group counts the entries that are fresh and belong to it.** -/
theorem groupLength_eq : m.groupLength now name = (m.membersOf now name).length := by
  unfold groupLength
  cases hg : (m.group now name).1 with
  | none =>
    rw [(group_eq_none_iff covers).1 hg]
    rfl
  | some pruned =>
    -- Both sides list the fresh members, and neither lists one twice.
    have same : pruned.keys.Perm ((m.membersOf now name).map (·.1)) := by
      refine (List.perm_ext_iff_of_nodup (tidy.prune name pruned hg).nodup
        (m.nodup_membersOf now name)).2 fun key => ?_
      rw [GroupIndex.mem_keys_of_get?_prune covers hg, isMember_iff_mem_membersOf]
      simp
    simpa using same.length_eq

include covers in
/-- **A look at a group finds the latest date at which a member expires.** -/
theorem groupExpiration?_eq_some_iff {date : Instant} :
    m.groupExpiration? now name = some date ↔
      (∃ member ∈ m.membersOf now name, member.2.details.expiration = date) ∧
      ∀ member ∈ m.membersOf now name, member.2.details.expiration ≤ date := by
  have dates :
      ((∃ key, Group.memberExpiration? name now m.members key = some date) ∧
        ∀ key d, Group.memberExpiration? name now m.members key = some d → d ≤ date) ↔
      (∃ member ∈ m.membersOf now name, member.2.details.expiration = date) ∧
        ∀ member ∈ m.membersOf now name, member.2.details.expiration ≤ date := by
    simp only [memberExpiration?_eq_some_iff, Prod.exists, Prod.forall]
    refine and_congr Iff.rfl ⟨fun h key s hs => h key _ ⟨s, hs, rfl⟩, ?_⟩
    rintro h key d ⟨s, hs, rfl⟩
    exact h key s hs
  rw [← dates]
  unfold groupExpiration?
  cases hg : (m.group now name).1 with
  | none =>
    have nobody := membersOf_eq_nil_iff.1 ((group_eq_none_iff covers).1 hg)
    constructor
    · intro h
      cases h
    · rintro ⟨⟨key, hd⟩, -⟩
      have hm := memberExpiration?_isSome.1 (Option.isSome_iff_exists.2 ⟨date, hd⟩)
      exact absurd hm (nobody key)
  | some pruned =>
    rw [Option.map_some, Option.some.injEq, eq_comm]
    exact GroupIndex.expiration_of_get?_prune covers hg date

include covers in
theorem groupExpiration?_eq_none_iff :
    m.groupExpiration? now name = none ↔ m.membersOf now name = [] := by
  rw [← group_eq_none_iff covers, groupExpiration?, Option.map_eq_none_iff]

/-! ### Sweeps -/

/-- Nothing is left of what has expired. -/
theorem not_expiredAt_of_mem_sweep {entry : CacheKey × Shared}
    (h : entry ∈ (m.sweep now).2.entries.entries) : entry.2.details.expiredAt now = false := by
  have kept : entry ∈ m.entries.entries.filter fun entry => !entry.2.details.expiredAt now := h
  simpa using (List.mem_filter.1 kept).2

include covers in
/-- **After a sweep the index has the groups with a fresh member**, and no others. -/
theorem isSome_get?_sweep_iff :
    ((m.sweep now).2.groups.get? name).isSome ↔ (m.sweep now).2.membersOf now name ≠ [] := by
  have fewer : m.groups.Covers now (m.sweep now).2.members := by
    refine covers.mono fun name key hm => ?_
    obtain ⟨s, hs, hg⟩ := isMember_iff.1 hm
    obtain ⟨hs, fresh⟩ := load_eq_some_iff.1 hs
    exact isMember_iff.2 ⟨s, load_eq_some_iff.2 ⟨Table.get?_of_filter hs, fresh⟩, hg⟩
  rw [ne_eq, membersOf_eq_nil_iff, not_forall_not]
  exact GroupIndex.isSome_get?_pruneAll_iff fewer

end MapStore

/-! ### The index of any store -/

namespace Leaf

variable {now : Instant} {key : CacheKey} {s : Shared} {shelf : Shelf} {l : Leaf} {name : String}

/-- The index of a store is in good order. -/
def Tidy (l : Leaf) : Prop := l.groups.Tidy

theorem IsNew.tidy (h : l.IsNew) : l.Tidy := by
  cases l with
  | map m =>
    obtain ⟨period, rfl⟩ := h
    exact GroupIndex.tidy_empty
  | bounded b =>
    obtain ⟨limits, period, rfl⟩ := h
    exact GroupIndex.tidy_empty

theorem Tidy.of_groups {other : Leaf} (h : l.Tidy) (same : other.groups = l.groups) :
    other.Tidy := by
  unfold Tidy
  rw [same]
  exact h

theorem Tidy.store (h : l.Tidy) : (l.store now key s).Tidy := by
  cases l with
  | map m => exact GroupIndex.Tidy.addAll h
  | bounded b => exact h.of_groups (BoundedStore.groups_store b key s)

theorem Tidy.drain (h : l.Tidy) : (l.drain shelf now).Tidy := by
  cases l with
  | map m => exact h
  | bounded b =>
    have general : ∀ (queue : List (CacheKey × Shared)) (b : BoundedStore), b.groups.Tidy →
        (queue.foldl (fun b entry => b.apply shelf now entry) b).groups.Tidy := by
      intro queue
      induction queue with
      | nil => exact fun b h => h
      | cons entry queue ih => exact fun b h => ih _ (GroupIndex.Tidy.addAll h)
    exact general b.queue _ h

theorem Tidy.chore {done : Leaf} (h : l.Tidy) (chore : Chore shelf now l done) : done.Tidy := by
  induction chore with
  | refl => exact h
  | trans _ _ first second => exact second (first h)
  | look name l =>
    cases l with
    | map m => exact GroupIndex.Tidy.prune h
    | bounded b => exact h
  | sweep l => cases l <;> exact GroupIndex.Tidy.pruneAll h
  | evict keep l => exact h.of_groups (by cases l <;> rfl)
  | drain => exact h.drain
  | setWorker worker l => exact h.of_groups (by cases l <;> rfl)

/-- **Upkeep leaves the index in good order.** -/
theorem Tidy.upkeep {kept : Leaf} (h : l.Tidy) (upkeep : Upkeep shelf now l kept) :
    kept.Tidy := by
  cases upkeep with
  | chore chore => exact h.chore chore
  | load key => exact h.of_groups (groups_load now key l)
  | delete key => exact h.of_groups (by cases l <;> rfl)
  | deleteGroup name => cases l <;> exact GroupIndex.Tidy.take h

end Leaf

end Store
end VariantCache
