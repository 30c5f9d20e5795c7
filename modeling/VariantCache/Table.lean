/-!
# Tables

A table gives values to keys, at most one to each. Its entries have no order that
anything depends on.
-/

namespace VariantCache

/-- A table with keys of type `K` and values of type `V`. -/
structure Table (K V : Type) where
  entries : List (K × V)
  distinct : (entries.map (·.1)).Nodup

namespace Table

variable {K V : Type} [DecidableEq K]

/-- The table without entries. -/
def empty : Table K V := ⟨[], List.nodup_nil⟩

instance : Inhabited (Table K V) := ⟨empty⟩

/-- The value of a key. -/
def get? (t : Table K V) (key : K) : Option V :=
  (t.entries.find? fun entry => entry.1 == key).map (·.2)

/-- The number of entries. -/
def size (t : Table K V) : Nat := t.entries.length

/-- The entries that have a property. -/
def filter (t : Table K V) (keep : K → V → Bool) : Table K V where
  entries := t.entries.filter fun entry => keep entry.1 entry.2
  distinct := t.distinct.sublist (List.filter_sublist.map _)

/-- The table without a key. -/
def erase (t : Table K V) (key : K) : Table K V := t.filter fun k _ => k != key

/-- The table where a key has a new value. -/
def insert (t : Table K V) (key : K) (value : V) : Table K V where
  entries := (key, value) :: (t.erase key).entries
  distinct := by
    simp only [List.map_cons, List.nodup_cons]
    refine ⟨?_, (t.erase key).distinct⟩
    simp [erase, filter]

/-- The table without some keys. -/
def eraseAll (t : Table K V) (keys : List K) : Table K V := keys.foldl erase t

/-- The table with each value replaced, or its entry left out. -/
def filterMap {W : Type} (t : Table K V) (f : K → V → Option W) : Table K W where
  entries := t.entries.filterMap fun entry => (f entry.1 entry.2).map (entry.1, ·)
  distinct := by
    refine t.distinct.sublist ?_
    induction t.entries with
    | nil => exact List.Sublist.slnil
    | cons entry rest ih =>
      simp only [List.filterMap_cons]
      cases f entry.1 entry.2 with
      | none => exact ih.cons _
      | some w => exact ih.cons_cons _

/-! ### What each operation does to the values -/

@[simp] theorem get?_empty (key : K) : (empty : Table K V).get? key = none := rfl

/-- The value of a key is the one it stands beside, since no key stands twice. -/
theorem get?_eq_some_iff (t : Table K V) (key : K) (value : V) :
    t.get? key = some value ↔ (key, value) ∈ t.entries := by
  obtain ⟨entries, distinct⟩ := t
  simp only [get?]
  induction entries with
  | nil => simp
  | cons entry rest ih =>
    rw [List.map_cons, List.nodup_cons] at distinct
    by_cases h : entry.1 = key
    · subst h
      have absent : (entry.1, value) ∉ rest := fun hm =>
        distinct.1 (List.mem_map.2 ⟨(entry.1, value), hm, rfl⟩)
      obtain ⟨first, second⟩ := entry
      simp_all [eq_comm]
    · have other : (key, value) ≠ entry := fun he => h (he ▸ rfl)
      simp only [List.find?_cons, List.mem_cons, other, false_or]
      rw [show (entry.1 == key) = false from by simpa using h]
      exact ih distinct.2

theorem get?_erase (t : Table K V) (key other : K) :
    (t.erase key).get? other = if other = key then none else t.get? other := by
  simp only [get?, erase, filter, List.find?_filter]
  split
  · next h => subst h; simp
  · next h =>
    congr 2
    funext entry
    by_cases he : entry.1 = other
    · simp [he, h]
    · simp [he]

theorem get?_insert (t : Table K V) (key other : K) (value : V) :
    (t.insert key value).get? other = if other = key then some value else t.get? other := by
  by_cases h : other = key
  · subst h; simp [get?, insert]
  · have := get?_erase t key other
    simp only [h, if_false] at this ⊢
    rw [← this]
    simp [get?, insert, Ne.symm h]

theorem get?_filter (t : Table K V) (keep : K → V → Bool) (key : K) :
    (t.filter keep).get? key = (t.get? key).filter (keep key) := by
  ext value
  rw [get?_eq_some_iff, Option.filter_eq_some_iff, get?_eq_some_iff]
  simp [filter]

theorem get?_filterMap {W : Type} (t : Table K V) (f : K → V → Option W) (key : K) :
    (t.filterMap f).get? key = (t.get? key).bind (f key) := by
  ext value
  rw [get?_eq_some_iff, Option.bind_eq_some_iff]
  simp only [get?_eq_some_iff, filterMap, List.mem_filterMap, Option.map_eq_some_iff, Prod.exists]
  constructor
  · rintro ⟨k, v, hm, w, hw, h⟩
    obtain ⟨rfl, rfl⟩ := Prod.mk.inj h
    exact ⟨v, hm, hw⟩
  · rintro ⟨v, hm, hw⟩
    exact ⟨key, v, hm, value, hw, rfl⟩

theorem get?_eraseAll (t : Table K V) (keys : List K) (key : K) :
    (t.eraseAll keys).get? key = if key ∈ keys then none else t.get? key := by
  unfold eraseAll
  induction keys generalizing t with
  | nil => simp
  | cons first rest ih =>
    rw [List.foldl_cons, ih, get?_erase]
    by_cases h : key = first
    · simp [h]
    · simp [h]

/-! ### What leaves entries out -/

theorem get?_of_filter {t : Table K V} {keep : K → V → Bool} {key : K} {value : V}
    (h : (t.filter keep).get? key = some value) : t.get? key = some value := by
  rw [get?_filter, Option.filter_eq_some_iff] at h
  exact h.1

theorem get?_of_erase {t : Table K V} {erased key : K} {value : V}
    (h : (t.erase erased).get? key = some value) : t.get? key = some value := get?_of_filter h

theorem get?_of_eraseAll {t : Table K V} {keys : List K} {key : K} {value : V}
    (h : (t.eraseAll keys).get? key = some value) : t.get? key = some value := by
  rw [get?_eraseAll] at h
  split at h
  · cases h
  · exact h

end Table
end VariantCache
