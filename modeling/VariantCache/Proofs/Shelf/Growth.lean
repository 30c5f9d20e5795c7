import VariantCache.Shelf

/-!
# Shelves that grow

A shelf grows when representations are put on it and the bodies that are there stay as
they are (`Grows`). Copies make it grow (`grows_copy`), and a copy has the details and
the bodies of the original (`bodiesOf_copy`).
-/

namespace VariantCache.Shelf

/-- The larger shelf has the bodies of the other one where they were. -/
structure Grows (shelf larger : Shelf) : Prop where
  size_le : shelf.bodies.size ≤ larger.bodies.size
  same : ∀ place < shelf.bodies.size, larger.bodies.getD place .empty =
    shelf.bodies.getD place .empty

theorem grows_refl (shelf : Shelf) : shelf.Grows shelf := ⟨Nat.le_refl _, fun _ _ => rfl⟩

theorem Grows.trans {a b c : Shelf} (h : a.Grows b) (h' : b.Grows c) : a.Grows c :=
  ⟨Nat.le_trans h.size_le h'.size_le, fun place lt =>
    (h'.same place (Nat.lt_of_lt_of_le lt h.size_le)).trans (h.same place lt)⟩

/-- What has a place on the shelf keeps it. -/
theorem Grows.place_lt {shelf larger : Shelf} (h : shelf.Grows larger) {s : Shared}
    (lt : s.place < shelf.bodies.size) : s.place < larger.bodies.size :=
  Nat.lt_of_lt_of_le lt h.size_le

theorem grows_add (shelf : Shelf) (r : Representation) : shelf.Grows (shelf.add r).2 := by
  refine ⟨?_, fun place lt => ?_⟩
  · simp [add]
  · simp [add, Array.getD_eq_getD_getElem?, Array.getElem?_push, Nat.ne_of_lt lt]

theorem grows_copy (shelf : Shelf) (s : Shared) : shelf.Grows (shelf.copy s).2 := grows_add _ _

theorem Grows.bodiesOf {shelf larger : Shelf} (h : shelf.Grows larger) {s : Shared}
    (lt : s.place < shelf.bodies.size) : larger.bodiesOf s = shelf.bodiesOf s := h.same s.place lt

theorem Grows.read {shelf larger : Shelf} (h : shelf.Grows larger) {s : Shared}
    (lt : s.place < shelf.bodies.size) : larger.read s = shelf.read s := by
  rw [Shelf.read, h.bodiesOf lt, Shelf.read]

theorem bodiesOf_add (shelf : Shelf) (r : Representation) :
    (shelf.add r).2.bodiesOf (shelf.add r).1 = r.bodies := by
  simp [add, Shelf.bodiesOf, Array.getD_eq_getD_getElem?]

/-- A copy has the bodies of the original. -/
theorem bodiesOf_copy (shelf : Shelf) (s : Shared) :
    (shelf.copy s).2.bodiesOf (shelf.copy s).1 = shelf.bodiesOf s := bodiesOf_add _ _

theorem read_copy (shelf : Shelf) (s : Shared) :
    (shelf.copy s).2.read (shelf.copy s).1 = shelf.read s :=
  congrArg (Representation.mk s.details) (bodiesOf_copy shelf s)

theorem place_copy_lt (shelf : Shelf) (s : Shared) :
    (shelf.copy s).1.place < (shelf.copy s).2.bodies.size := by
  simp [copy, add]

end VariantCache.Shelf
