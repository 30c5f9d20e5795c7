import VariantCache.Proofs.Representation.Payload
import VariantCache.Proofs.Shelf.Growth

/-!
# Payloads on a shelf

A place on the shelf carries a payload when the bodies there do. It still does when the
shelf grows, a copy carries what the original carries, and a request for a real coding
is answered with the payload (`exists_fetch`) and spoils no place (`Carries.fetch`), as it
keeps in every place what it keeps of the bodies there (`bodiesOf_fetch`).
-/

namespace VariantCache.Shelf

/-- There are bodies in the place of a representation, and they carry the payload. -/
structure Carries (shelf : Shelf) (s : Shared) (payload : Bytes) : Prop where
  place_lt : s.place < shelf.bodies.size
  bodies : (shelf.bodiesOf s).Carry payload

variable {shelf larger : Shelf} {s t : Shared} {payload other : Bytes} {coding : Coding}

theorem Carries.grows (h : shelf.Carries s payload) (g : shelf.Grows larger) :
    larger.Carries s payload where
  place_lt := Nat.lt_of_lt_of_le h.place_lt g.size_le
  bodies := by
    rw [g.bodiesOf h.place_lt]
    exact h.bodies

theorem Carries.copy (h : shelf.Carries s payload) :
    (shelf.copy s).2.Carries (shelf.copy s).1 payload where
  place_lt := shelf.place_copy_lt s
  bodies := by
    rw [bodiesOf_copy]
    exact h.bodies

theorem carries_add (shelf : Shelf) {r : Representation} (h : r.bodies.Carry payload) :
    (shelf.add r).2.Carries (shelf.add r).1 payload where
  place_lt := by simp [add]
  bodies := by
    rw [bodiesOf_add]
    exact h

/-- A request is answered from the bodies in the place. -/
theorem fst_fetch (shelf : Shelf) (s : Shared) (coding : Coding) :
    (shelf.fetch s coding).1 = ((shelf.bodiesOf s).fetch coding).1 := by
  unfold Shelf.fetch
  split
  · next answer bodies hf =>
    rw [hf]
    split <;> rfl
  · next hf => rw [hf]

/-- A request for a real coding is answered with the payload. -/
theorem exists_fetch (h : shelf.Carries s payload) (real : coding.isReal = true) :
    ∃ answer, (shelf.fetch s coding).1 = some answer ∧ coding.decode answer.body = .ok payload := by
  obtain ⟨answer, bodies, hf, hd, -⟩ := h.bodies.fetch real
  exact ⟨answer, by rw [fst_fetch, hf], hd⟩

/-- A request that is not answered leaves the shelf as it is. -/
theorem snd_fetch_of_none (h : (shelf.fetch s coding).1 = none) :
    (shelf.fetch s coding).2 = shelf := by
  unfold Shelf.fetch at h ⊢
  split at h
  · next hf =>
    split at h <;> cases h
  · next hf => rfl

@[simp] theorem size_fetch (shelf : Shelf) (s : Shared) (coding : Coding) :
    (shelf.fetch s coding).2.bodies.size = shelf.bodies.size := by
  unfold Shelf.fetch
  split
  · split
    · simp
    · rfl
  · rfl

/-- A property of bodies that a request for a body keeps is kept in every place: the same place may
have one more body, the others have what they had. -/
theorem bodiesOf_fetch {P : Bodies → Prop} (keeps : ∀ b, P b → P (b.fetch coding).2)
    (placed : t.place < shelf.bodies.size) (h : P (shelf.bodiesOf t)) :
    P ((shelf.fetch s coding).2.bodiesOf t) := by
  unfold Shelf.fetch
  split
  · next answer bodies hf =>
    split
    · by_cases same : t.place = s.place
      · have bodiesOf_eq : shelf.bodiesOf s = shelf.bodiesOf t := by simp only [bodiesOf, same]
        have kept : P bodies := by
          rw [bodiesOf_eq] at hf
          rw [show bodies = ((shelf.bodiesOf t).fetch coding).2 by rw [hf]]
          exact keeps _ h
        rw [same] at placed
        simpa [bodiesOf, same, Array.getD_eq_getD_getElem?, Array.getElem?_setIfInBounds,
          placed] using kept
      · have apart : s.place ≠ t.place := fun e => same e.symm
        simpa [bodiesOf, Array.getD_eq_getD_getElem?, Array.getElem?_setIfInBounds,
          apart] using h
    · exact h
  · exact h

/-- What any place carries it carries after the request too: the same place has one more body of the
same payload. -/
theorem Carries.fetch (h : shelf.Carries t other) (real : coding.isReal = true) :
    (shelf.fetch s coding).2.Carries t other where
  place_lt := by simpa using h.place_lt
  bodies := by
    refine bodiesOf_fetch (P := (·.Carry other)) (fun b carry => ?_) h.place_lt h.bodies
    obtain ⟨answer, bodies, hf, -, kept⟩ := carry.fetch real
    rw [hf]
    exact kept

end VariantCache.Shelf
