import VariantCache.Proofs.Store.GroupIndex

/-!
# The groups that a key is listed under

That the index finds every fresh member is an invariant of stores that began empty. What
each operation does to the listing of one fresh member needs no invariant: pruning leaves
it as it is (`lists_prune_iff`, `lists_pruneAll_iff`), adding a key lists that key and
nothing else (`lists_addAll_iff`), and taking a group ends the listing under that group
only (`lists_take_iff`).
-/

namespace VariantCache.Store.GroupIndex

variable {index : GroupIndex} {name other : String} {now : Instant} {members : Membership}
  {key k : CacheKey} {expiration : Instant}

/-- The groups among some names that a key is listed under. -/
def listing (index : GroupIndex) (key : CacheKey) (names : List String) : List String :=
  names.filter fun name => (index.get? name).any fun group => key ∈ group.keys

theorem any_iff_lists :
    ((index.get? name).any fun group => key ∈ group.keys) = true ↔ index.Lists name key := by
  simp only [Option.any_eq_true, decide_eq_true_eq, Lists]

theorem mem_listing {names : List String} :
    name ∈ index.listing key names ↔ name ∈ names ∧ index.Lists name key := by
  rw [listing, List.mem_filter, any_iff_lists]

theorem listing_congr {other : GroupIndex} {names : List String}
    (h : ∀ name ∈ names, other.Lists name key ↔ index.Lists name key) :
    other.listing key names = index.listing key names := by
  refine List.filter_congr fun name hn => ?_
  rw [Bool.eq_iff_iff, any_iff_lists, any_iff_lists]
  exact h name hn

theorem listing_eq_self {names : List String} (h : ∀ name ∈ names, index.Lists name key) :
    index.listing key names = names :=
  List.filter_eq_self.2 fun name hn => any_iff_lists.2 (h name hn)

/-! ### Pruning -/

/-- Pruning lists nothing new. -/
theorem Lists.of_prune (h : (index.prune name now members).Lists other key) :
    index.Lists other key := by
  obtain ⟨group, hg, hk⟩ := h
  unfold GroupIndex.prune at hg
  cases hi : index.get? name with
  | none =>
    rw [hi] at hg
    exact ⟨group, hg, hk⟩
  | some old =>
    rw [hi] at hg
    simp only at hg
    cases hp : old.prune? name now members with
    | none =>
      rw [hp] at hg
      exact ⟨group, Table.get?_of_erase hg, hk⟩
    | some pruned =>
      rw [hp] at hg
      simp only [Table.get?_insert] at hg
      split at hg
      · next same =>
        obtain rfl := Option.some.inj hg
        exact ⟨old, by rw [same, hi], ((mem_keys_of_prune? hp key).1 hk).1⟩
      · exact ⟨group, hg, hk⟩

theorem lists_prune_iff (hm : IsMember members now other key) :
    (index.prune name now members).Lists other key ↔ index.Lists other key :=
  ⟨Lists.of_prune, fun h => h.prune hm⟩

theorem lists_pruneAll_iff (hm : IsMember members now name key) :
    (index.pruneAll now members).Lists name key ↔ index.Lists name key := by
  unfold pruneAll Lists
  simp only [Table.get?_filterMap, Option.bind_eq_some_iff]
  constructor
  · rintro ⟨pruned, ⟨group, hg, hp⟩, hk⟩
    exact ⟨group, hg, ((mem_keys_of_prune? hp key).1 hk).1⟩
  · rintro ⟨group, hg, hk⟩
    obtain ⟨pruned, hp⟩ := exists_prune? hk hm
    exact ⟨pruned, ⟨group, hg, hp⟩, (mem_keys_of_prune? hp key).2 ⟨hk, hm⟩⟩

/-! ### Adding a key to its groups -/

/-- Adding a key lists that key and no other. -/
theorem Lists.of_add (h : (index.add name key expiration now members).Lists other k) :
    index.Lists other k ∨ other = name ∧ k = key := by
  obtain ⟨group, hg, hk⟩ : Lists (index.insert name _) other k := Lists.of_prune h
  rw [Table.get?_insert] at hg
  split at hg
  · next same =>
    subst same
    obtain rfl := Option.some.inj hg
    simp only at hk
    have before : k ∈ ((index.get? other).getD ⟨[], expiration⟩).keys ∨ k = key := by
      split at hk
      · exact .inl hk
      · simpa using hk
    refine before.imp (fun hk => ?_) fun hk => ⟨rfl, hk⟩
    cases hi : index.get? other with
    | none => simp [hi] at hk
    | some old => exact ⟨old, hi, by simpa [hi] using hk⟩
  · exact .inl ⟨group, hg, hk⟩

theorem lists_addAll_iff {names : List String} (hm : IsMember members now other k) :
    (index.addAll names key expiration now members).Lists other k ↔
      index.Lists other k ∨ other ∈ names ∧ k = key := by
  constructor
  · unfold addAll
    induction names generalizing index with
    | nil => exact .inl
    | cons name names ih =>
      intro h
      rcases ih h with h | ⟨hn, hk⟩
      · rcases h.of_add with h | ⟨rfl, hk⟩
        · exact .inl h
        · exact .inr ⟨List.mem_cons_self, hk⟩
      · exact .inr ⟨List.mem_cons_of_mem _ hn, hk⟩
  · rintro (h | ⟨hn, rfl⟩)
    · exact h.addAll hm
    · exact lists_addAll hn hm

/-! ### Taking a group -/

/-- A group that was taken lists nothing. -/
theorem not_lists_take : ¬ (index.take name now members).2.Lists name key := by
  rintro ⟨group, hg, -⟩
  rw [take, Table.get?_erase, if_pos rfl] at hg
  cases hg

theorem lists_take_iff (hm : IsMember members now other key) (ne : other ≠ name) :
    (index.take name now members).2.Lists other key ↔ index.Lists other key := by
  refine ⟨fun h => ?_, fun h => h.take hm ne⟩
  obtain ⟨group, hg, hk⟩ := h
  exact Lists.of_prune ⟨group, Table.get?_of_erase hg, hk⟩

end VariantCache.Store.GroupIndex
