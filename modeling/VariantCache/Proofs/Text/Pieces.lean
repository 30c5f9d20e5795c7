import Mathlib
import VariantCache.Text.Split

/-!
# A text without one of its pieces

A piece of a text can be taken out together with a separator beside it (`without`). The other pieces
stay as they are (`splitAt_without`); of a text that is one piece nothing is left, which is one
empty piece again. What is read off a text piece by piece, where nothing is read off an empty piece,
is then read off the other pieces (`filterMap_splitAt_without`).
-/

namespace VariantCache.Text

variable {α : Type} {separator : Char}

theorem splitAt_eq_splitOn (separator : Char) (cs : List Char) :
    splitAt separator cs = cs.splitOn separator := by
  induction cs with
  | nil => rfl
  | cons c rest ih =>
    rw [List.splitOn_eq_splitOnP, List.splitOnP_cons_eq_if_modifyHead, ← List.splitOn_eq_splitOnP,
      ← ih, splitAt]
    simp only [beq_iff_eq]
    split
    · rfl
    · cases h : splitAt separator rest with
      | nil => exact absurd h (splitAt_ne_nil separator rest)
      | cons piece pieces => rfl

theorem notMem_of_mem_splitAt {piece cs : List Char} (h : piece ∈ splitAt separator cs) :
    separator ∉ piece := by
  induction cs generalizing piece with
  | nil =>
    rw [List.mem_singleton.1 h]
    exact List.not_mem_nil
  | cons c rest ih =>
    rw [splitAt] at h
    split at h
    · rcases List.mem_cons.1 h with rfl | h
      · exact List.not_mem_nil
      · exact ih h
    · next other =>
      cases hr : splitAt separator rest with
      | nil => exact absurd hr (splitAt_ne_nil separator rest)
      | cons first pieces =>
        rw [hr] at h ih
        rcases List.mem_cons.1 h with rfl | h
        · exact List.not_mem_cons_of_ne_of_not_mem (Ne.symm other) (ih List.mem_cons_self)
        · exact ih (List.mem_cons_of_mem _ h)

/-- The text without the piece at a place among its pieces. -/
def without (separator : Char) (i : Nat) (cs : List Char) : List Char :=
  [separator].intercalate ((splitAt separator cs).eraseIdx i)

/-- The other pieces stay as they are. -/
theorem splitAt_without {i : Nat} {cs : List Char} (h : (splitAt separator cs).eraseIdx i ≠ []) :
    splitAt separator (without separator i cs) = (splitAt separator cs).eraseIdx i := by
  rw [without, splitAt_eq_splitOn, List.splitOn_intercalate _ (fun piece hp => ?_) h]
  exact notMem_of_mem_splitAt (List.mem_of_mem_eraseIdx hp)

/-- What is read off each piece by itself is read off the other pieces. -/
theorem filterMap_splitAt_without {f : List Char → Option α} (empty : f [] = none) (i : Nat)
    (cs : List Char) :
    (splitAt separator (without separator i cs)).filterMap f =
      ((splitAt separator cs).eraseIdx i).filterMap f := by
  by_cases h : (splitAt separator cs).eraseIdx i = []
  · rw [without, h]
    exact List.filterMap_cons_none empty
  · rw [splitAt_without h]

/-- A piece off which nothing is read may be taken out. -/
theorem filterMap_eraseIdx {β : Type} {f : β → Option α} {list : List β} {i : Nat} {b : β}
    (here : list[i]? = some b) (nothing : f b = none) :
    (list.eraseIdx i).filterMap f = list.filterMap f := by
  obtain ⟨lt, rfl⟩ := List.getElem?_eq_some_iff.1 here
  conv_rhs => rw [← List.take_append_drop i list, List.drop_eq_getElem_cons lt]
  rw [List.eraseIdx_eq_take_drop_succ, List.filterMap_append, List.filterMap_append,
    List.filterMap_cons_none nothing]

end VariantCache.Text
