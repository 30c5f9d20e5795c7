import VariantCache.Proofs.Preference.Order

/-!
# Elements that are stated again

An element echoes another one that names the same and is no lighter (`Echoes`). Lines of a field
that are joined have the elements of all of them (`elements_intercalate`). Where those after the first
line only echo its elements (`OnlyEchoes`), the joined lines add nothing to the first one
(`addsEchoes_intercalate`): the same names are refused (`AddsEchoes.exists_iff`), and a search through
what is wanted finds the same (`AddsEchoes.findSome?_wanted`).
-/

namespace VariantCache.Preference

open Text

variable {header longer : String} {lines : List String} {p q : Preference}

/-! ### Echoes -/

/-- The element says nothing that the other one does not say as strongly: it names the same, is no
heavier, and is a refusal when the other one is. -/
structure Echoes (p q : Preference) : Prop where
  name : p.name = q.name
  refused : p.isRefused = q.isRefused
  lighter : p.weight.value ≤ q.weight.value

/-- The elements of the longer header are those of the other one, and after them only echoes. -/
def AddsEchoes (header longer : String) : Prop :=
  ∃ more, elements longer.toList = elements header.toList ++ more ∧
    ∀ p ∈ more, ∃ q ∈ elements header.toList, p.Echoes q

/-- What the lines after the first state, the first line states already. -/
def OnlyEchoes (lines : List String) : Prop :=
  ∀ line ∈ lines.tail, ∀ p ∈ elements line.toList, ∃ q ∈ elements (lines.headD "").toList, p.Echoes q

instance (p q : Preference) : Decidable (p.Echoes q) :=
  decidable_of_iff (p.name = q.name ∧ p.isRefused = q.isRefused ∧ q.comesFirst p = true)
    ⟨fun ⟨name, refused, first⟩ => ⟨name, refused, comesFirst_iff.1 first⟩,
      fun ⟨name, refused, lighter⟩ => ⟨name, refused, comesFirst_iff.2 lighter⟩⟩

instance (lines : List String) : Decidable (OnlyEchoes lines) :=
  inferInstanceAs (Decidable (∀ line ∈ lines.tail, ∀ p ∈ elements line.toList, _))

theorem AddsEchoes.refl (header : String) : AddsEchoes header header :=
  ⟨[], (List.append_nil _).symm, fun _ h => absurd h List.not_mem_nil⟩

/-! ### Joined lines -/

theorem toList_intercalate_cons_cons (line next : String) (rest : List String) :
    (", ".intercalate (line :: next :: rest)).toList =
      line.toList ++ ',' :: ' ' :: (", ".intercalate (next :: rest)).toList := by
  rw [String.intercalate_cons_cons, String.toList_append, String.toList_append, List.append_assoc]
  rfl

/-- Joined lines have the elements of each line, in order. -/
theorem elements_intercalate (lines : List String) :
    elements (", ".intercalate lines).toList = lines.flatMap fun line => elements line.toList := by
  induction lines with
  | nil => rfl
  | cons line rest ih =>
    cases rest with
    | nil => simp
    | cons next rest =>
      rw [toList_intercalate_cons_cons, elements_append,
        ignoresEnds_elements.cons (by decide : isBlank ' '), ih]
      rfl

/-- Lines that only echo the first one add nothing to it. -/
theorem addsEchoes_intercalate (h : OnlyEchoes lines) :
    AddsEchoes (lines.headD "") (", ".intercalate lines) := by
  cases lines with
  | nil => exact AddsEchoes.refl ""
  | cons first later =>
    refine ⟨later.flatMap fun line => elements line.toList, ?_, fun p hp => ?_⟩
    · rw [elements_intercalate, List.flatMap_cons, List.headD_cons]
    · obtain ⟨line, hl, hp⟩ := List.mem_flatMap.1 hp
      exact h line hl p hp

/-! ### What is read off a header -/

namespace AddsEchoes

/-- Of the elements of both headers the same holds, as long as it does not depend on how heavy wishes
are. -/
theorem exists_iff {P : Preference → Prop} (h : AddsEchoes header longer)
    (alike : ∀ p q, p.Echoes q → (P p ↔ P q)) :
    (∃ p ∈ elements longer.toList, P p) ↔ ∃ p ∈ elements header.toList, P p := by
  obtain ⟨more, stated, echoes⟩ := h
  rw [stated]
  constructor
  · rintro ⟨p, hp, holds⟩
    rcases List.mem_append.1 hp with hp | hp
    · exact ⟨p, hp, holds⟩
    · obtain ⟨q, hq, echo⟩ := echoes p hp
      exact ⟨q, hq, (alike p q echo).1 holds⟩
  · rintro ⟨p, hp, holds⟩
    exact ⟨p, List.mem_append_left more hp, holds⟩

theorem forall_iff {P : Preference → Prop} (h : AddsEchoes header longer)
    (alike : ∀ p q, p.Echoes q → (P p ↔ P q)) :
    (∀ p ∈ elements longer.toList, P p) ↔ ∀ p ∈ elements header.toList, P p := by
  have counterexamples := h.exists_iff (P := fun p => ¬P p) fun p q echo => not_congr (alike p q echo)
  simpa only [not_exists, not_and, not_not] using not_congr counterexamples

theorem any_ofHeader {f : Preference → Bool} (h : AddsEchoes header longer)
    (alike : ∀ p q, p.Echoes q → f p = f q) : (ofHeader longer).any f = (ofHeader header).any f := by
  rw [Bool.eq_iff_iff, List.any_eq_true, List.any_eq_true]
  simp only [mem_ofHeader]
  exact h.exists_iff fun p q echo => by rw [alike p q echo]

/-- A search through the wishes of a header that goes by the names finds the same. -/
theorem findSome?_wanted {β : Type} {f : Preference → Option β} (h : AddsEchoes header longer)
    (byName : ∀ p q : Preference, p.name = q.name → f p = f q) :
    ((ofHeader longer).filter (! ·.isRefused)).findSome? f =
      ((ofHeader header).filter (! ·.isRefused)).findSome? f := by
  obtain ⟨more, stated, echoes⟩ := h
  -- A refusal is an element off which nothing is read.
  let wish (p : Preference) : Option β := if !p.isRefused then f p else none
  have search (list : List Preference) :
      (list.filter (! ·.isRefused)).findSome? f = list.findSome? wish := by
    rw [← List.head?_filterMap, ← List.head?_filterMap, List.filterMap_filter]
  have merged : ofHeader longer = (ofHeader header).merge (more.mergeSort comesFirst) comesFirst := by
    rw [ofHeader, stated]
    exact mergeSort_append (elements header.toList) more
  rw [search, search, merged]
  refine findSome?_merge (sorted_mergeSort (fun p : Preference => p.weight.rank) _) fun p hp => .inr ?_
  obtain ⟨q, hq, echo⟩ := echoes p (List.mem_mergeSort.1 hp)
  refine ⟨q, List.mem_mergeSort.2 hq, Weight.value_le_value_iff.1 echo.lighter, ?_⟩
  simp only [wish, echo.refused, byName p q echo.name]

end AddsEchoes
end VariantCache.Preference
