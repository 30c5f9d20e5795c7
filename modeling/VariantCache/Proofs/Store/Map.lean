import VariantCache.Proofs.Store.Grouping

/-!
# What loads of a map store find

What a map store answers is the function from keys to what a load finds. Here is what
each operation does to it: loads, sweeps and looks at groups do nothing, a store changes
what is found under its own key only, and the deletion of a group takes away what belongs
to the group.
-/

namespace VariantCache.Store

namespace MapStore

variable (m : MapStore) (now : Instant) (key k : CacheKey)

theorem load_load : ((m.load now key).2.load now k).1 = (m.load now k).1 := by
  ext t
  rw [load_eq_some_iff, load_eq_some_iff]
  refine ⟨fun h => ⟨get?_of_load h.1, h.2⟩, fun h => ⟨?_, h.2⟩⟩
  unfold load
  split
  · exact h.1
  · next s hs =>
    split
    · next expired =>
      -- What is evicted is not fresh, so it is not what is found under the key.
      simp only [Table.get?_erase]
      split
      · next same =>
        rw [same, hs] at h
        obtain rfl := Option.some.inj h.1
        exact absurd (decide_eq_true_iff.1 expired) (Instant.not_lt.2 h.2)
      · exact h.1
    · exact h.1

theorem load_store (s : Shared) :
    ((m.store now key s).load now k).1 =
      if k = key then (some s).filter (fun s => now ≤ s.details.expiration)
      else (m.load now k).1 := by
  by_cases h : k = key
  · rw [if_pos h]
    ext t
    rw [load_eq_some_iff, get?_store, if_pos h, Option.filter_eq_some_iff, decide_eq_true_iff]
  · rw [if_neg h]
    exact load_congr (by rw [get?_store, if_neg h])

theorem load_delete :
    ((m.delete key).load now k).1 = if k = key then none else (m.load now k).1 := by
  ext t
  rw [load_eq_some_iff, delete, Table.get?_erase]
  by_cases h : k = key
  · simp [h]
  · rw [if_neg h, if_neg h, load_eq_some_iff]

theorem load_sweep : ((m.sweep now).2.load now k).1 = (m.load now k).1 := by
  ext t
  rw [load_eq_some_iff, load_eq_some_iff, get?_sweep, Option.filter_eq_some_iff]
  refine ⟨fun h => ⟨h.1.1, h.2⟩, fun h => ⟨⟨h.1, ?_⟩, h.2⟩⟩
  simpa [Details.expiredAt] using Instant.not_lt.2 h.2

theorem load_later {later : Instant} (le : now ≤ later) :
    (m.load later k).1 = ((m.load now k).1).filter (fun s => later ≤ s.details.expiration) := by
  ext t
  rw [load_eq_some_iff, Option.filter_eq_some_iff, load_eq_some_iff, decide_eq_true_iff]
  exact ⟨fun h => ⟨⟨h.1, Instant.le_trans le h.2⟩, h.2⟩, fun h => ⟨h.1.1, h.2⟩⟩

theorem load_deleteGroup (indexed : (Leaf.map m).Indexed now) (name : String) :
    ((m.deleteGroup now name).load now k).1 =
      ((m.load now k).1).filter (fun s => !s.details.inGroup name) :=
  indexed.load_deleteGroup

end MapStore

/-- The chores of a map store make no difference to what is found. -/
theorem Leaf.Chore.of_map {shelf : Shelf} {now : Instant} {l done : Leaf}
    (h : Leaf.Chore shelf now l done) {m : MapStore} (hm : l = .map m) :
    ∃ m', done = .map m' ∧ ∀ k, (m'.load now k).1 = (m.load now k).1 := by
  induction h generalizing m with
  | refl => exact ⟨m, hm, fun _ => rfl⟩
  | trans _ _ first second =>
    obtain ⟨m₁, h₁, same₁⟩ := first hm
    obtain ⟨m₂, h₂, same₂⟩ := second h₁
    exact ⟨m₂, h₂, fun k => (same₂ k).trans (same₁ k)⟩
  | look name =>
    subst hm
    exact ⟨_, rfl, fun _ => MapStore.load_congr rfl⟩
  | sweep =>
    subst hm
    exact ⟨_, rfl, m.load_sweep now⟩
  | evict =>
    subst hm
    exact ⟨m, rfl, fun _ => rfl⟩
  | drain =>
    subst hm
    exact ⟨m, rfl, fun _ => rfl⟩
  | setWorker worker =>
    subst hm
    exact ⟨_, rfl, fun _ => MapStore.load_congr rfl⟩

end VariantCache.Store
