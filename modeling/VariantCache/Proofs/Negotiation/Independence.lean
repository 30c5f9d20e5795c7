import VariantCache.Proofs.Negotiation.Precedence

/-!
# Variants that are not chosen

A variant that is not chosen does not count: without it the choice is the same. So a variant that
is added, wherever it stands, is chosen itself or changes nothing (`others_do_not_count`).

The grounds for a choice come from the request alone. Where a resource is a part of another one,
with its variants in the same order (`Part`), a ground speaks for the same variants in both
(`Part.speaksFor_iff`), and what comes first in the whole comes first in the part if it belongs to it
(`Part.comesFirst`).
-/

namespace VariantCache.Negotiation

variable {H : Type} {part whole : Resource H} {place : Nat → Nat} {accept acceptLanguage : Option String}

/-! ### Parts of a resource -/

/-- The variants of the one resource are variants of the other, in the same order. -/
structure Part (place : Nat → Nat) (part whole : Resource H) : Prop where
  strictMono : StrictMono place
  getElem? (i : Nat) : part[i]? = whole[place i]?

namespace Part

theorem speaksFor_iff (h : Part place part whole) {g : Ground} {i : Nat} :
    SpeaksFor part accept g i ↔ SpeaksFor whole accept g (place i) := by
  rw [SpeaksFor, SpeaksFor, h.getElem? i]

/-- What comes first in the whole comes first in a part that it belongs to. -/
theorem comesFirst (h : Part place part whole) {i : Nat}
    (first : ComesFirst whole accept acceptLanguage (place i)) :
    ComesFirst part accept acceptLanguage i := by
  obtain ⟨g, given, speaks, least⟩ := first
  refine ⟨g, given, h.speaksFor_iff.2 speaks, fun g' j given' speaks' => ?_⟩
  rcases least g' (place j) given' (h.speaksFor_iff.1 speaks') with before | ⟨same, le⟩
  · exact .inl before
  · exact .inr ⟨same, h.strictMono.le_iff_le.1 le⟩

/-- A resource that is refused altogether is refused in every part. -/
theorem chosenPlace?_eq_none (h : Part place part whole)
    (nothing : chosenPlace? whole accept acceptLanguage = none) :
    chosenPlace? part accept acceptLanguage = none := by
  rw [chosenPlace?_eq_none_iff] at nothing ⊢
  intro v hv
  obtain ⟨i, hi⟩ := List.mem_iff_getElem?.1 hv
  rw [h.getElem? i] at hi
  exact nothing v (List.mem_of_getElem? hi)

/-- The choice from the whole is the choice from a part that it belongs to. -/
theorem map_chosenPlace? (h : Part place part whole)
    (belongs : ∀ j, chosenPlace? whole accept acceptLanguage = some j → j ∈ Set.range place) :
    (chosenPlace? part accept acceptLanguage).map place = chosenPlace? whole accept acceptLanguage := by
  cases chosen : chosenPlace? whole accept acceptLanguage with
  | none => rw [h.chosenPlace?_eq_none chosen, Option.map_none]
  | some j =>
    obtain ⟨i, rfl⟩ := belongs j chosen
    rw [chosenPlace?_eq_some_iff.2 (h.comesFirst (chosenPlace?_eq_some_iff.1 chosen)), Option.map_some]

/-- Choices at the same place are choices of the same variant. -/
theorem chooseVariant?_eq (h : Part place part whole)
    (same : (chosenPlace? part accept acceptLanguage).map place =
      chosenPlace? whole accept acceptLanguage) :
    chooseVariant? part accept acceptLanguage = chooseVariant? whole accept acceptLanguage := by
  rw [chooseVariant?_eq_at_place part, chooseVariant?_eq_at_place whole, ← same, Option.bind_map]
  exact congrArg _ (funext h.getElem?)

end Part

/-! ### Without some of the variants -/

/-- Where a place is, once there are some more places from a place on. -/
def moved (start more i : Nat) : Nat := if i < start then i else i + more

theorem strictMono_moved (start more : Nat) : StrictMono (moved start more) := by
  intro i j lt
  unfold moved
  split <;> split <;> omega

/-- All places but the ones in between are places of the part. -/
theorem mem_range_moved {start more j : Nat} (h : j < start ∨ start + more ≤ j) :
    j ∈ Set.range (moved start more) := by
  rcases h with before | after
  · exact ⟨j, if_pos before⟩
  · refine ⟨j - more, (if_neg (by omega)).trans (by omega)⟩

theorem part_eraseIdx (resource : Resource H) (j : Nat) :
    Part (moved j 1) (resource.eraseIdx j) resource where
  strictMono := strictMono_moved j 1
  getElem? i := by
    rw [List.getElem?_eraseIdx, moved]
    split <;> rfl

theorem part_append (front more back : Resource H) :
    Part (moved front.length more.length) (front ++ back) (front ++ (more ++ back)) where
  strictMono := strictMono_moved _ _
  getElem? i := by
    unfold moved
    split
    · next before => rw [List.getElem?_append_left before, List.getElem?_append_left before]
    · next after =>
      rw [List.getElem?_append_right (by omega), List.getElem?_append_right (by omega),
        List.getElem?_append_right (by omega)]
      congr 1
      omega

/-! ### Irrelevant variants -/

/-- More variants in a resource are chosen from, or change nothing. -/
theorem choice_append (front more back : Resource H) (accept acceptLanguage : Option String) :
    (chooseVariant? (front ++ (more ++ back)) accept acceptLanguage =
        chooseVariant? (front ++ back) accept acceptLanguage ∧
      chosenPlace? (front ++ (more ++ back)) accept acceptLanguage =
        (chosenPlace? (front ++ back) accept acceptLanguage).map (moved front.length more.length)) ∨
    ∃ i v, more[i]? = some v ∧
      chooseVariant? (front ++ (more ++ back)) accept acceptLanguage = some v ∧
      chosenPlace? (front ++ (more ++ back)) accept acceptLanguage = some (front.length + i) := by
  by_cases new : ∃ i < more.length,
      chosenPlace? (front ++ (more ++ back)) accept acceptLanguage = some (front.length + i)
  · obtain ⟨i, lt, chosen⟩ := new
    refine .inr ⟨i, more[i], List.getElem?_eq_getElem lt, ?_, chosen⟩
    rw [chooseVariant?_eq_at_place, chosen, Option.bind_some,
      List.getElem?_append_right (Nat.le_add_right _ _), Nat.add_sub_cancel_left,
      List.getElem?_append_left lt, List.getElem?_eq_getElem lt]
  · have part := part_append front more back
    have same : (chosenPlace? (front ++ back) accept acceptLanguage).map
        (moved front.length more.length) =
          chosenPlace? (front ++ (more ++ back)) accept acceptLanguage := by
      refine part.map_chosenPlace? fun j chosen => mem_range_moved ?_
      by_contra between
      exact new ⟨j - front.length, by omega, chosen.trans (congrArg some (by omega))⟩
    exact .inl ⟨(part.chooseVariant?_eq same).symm, same.symm⟩

theorem register_eq (resource : Resource H) (contentTypes languages : List String) (handler : H) :
    ∃ more : Resource H, resource.register contentTypes languages handler = resource ++ more ∧
      ∀ v ∈ more, v.handler = handler := by
  refine ⟨_, rfl, fun v hv => ?_⟩
  obtain ⟨contentType, -, hv⟩ := List.mem_flatMap.1 hv
  obtain ⟨language, -, rfl⟩ := List.mem_map.1 hv
  rfl

/-- What is chosen is at one of the places. -/
theorem lt_of_chosenPlace? {resource : Resource H} {i : Nat}
    (h : chosenPlace? resource accept acceptLanguage = some i) : i < resource.length := by
  obtain ⟨g, -, ⟨v, hv, -⟩, -⟩ := chosenPlace?_eq_some_iff.1 h
  exact (List.getElem?_eq_some_iff.1 hv).1

/-- **A variant that is not chosen does not count.** Without it the same variant is chosen. So
when variants are added to a resource, at its end or anywhere else, either the same variant is
chosen as before or one of those; and registering a handler leaves the choice as it was or makes it
one of the new variants, which are that handler's. -/
theorem others_do_not_count (resource : Resource H) (accept acceptLanguage : Option String) :
    (∀ j, chosenPlace? resource accept acceptLanguage ≠ some j →
      chooseVariant? (resource.eraseIdx j) accept acceptLanguage =
          chooseVariant? resource accept acceptLanguage ∧
        (chosenPlace? (resource.eraseIdx j) accept acceptLanguage).map (moved j 1) =
          chosenPlace? resource accept acceptLanguage) ∧
    (∀ front more back : Resource H, resource = front ++ back →
      (chooseVariant? (front ++ (more ++ back)) accept acceptLanguage =
          chooseVariant? resource accept acceptLanguage ∧
        chosenPlace? (front ++ (more ++ back)) accept acceptLanguage =
          (chosenPlace? resource accept acceptLanguage).map (moved front.length more.length)) ∨
      ∃ i v, more[i]? = some v ∧
        chooseVariant? (front ++ (more ++ back)) accept acceptLanguage = some v ∧
        chosenPlace? (front ++ (more ++ back)) accept acceptLanguage = some (front.length + i)) ∧
    ∀ (contentTypes languages : List String) (handler : H),
      (chooseVariant? (resource.register contentTypes languages handler) accept acceptLanguage =
          chooseVariant? resource accept acceptLanguage ∧
        chosenPlace? (resource.register contentTypes languages handler) accept acceptLanguage =
          chosenPlace? resource accept acceptLanguage) ∨
      ∃ i v, resource.length ≤ i ∧ v.handler = handler ∧
        chooseVariant? (resource.register contentTypes languages handler) accept acceptLanguage =
          some v ∧
        chosenPlace? (resource.register contentTypes languages handler) accept acceptLanguage =
          some i := by
  refine ⟨fun j other => ?_, ?_, fun contentTypes languages handler => ?_⟩
  · have part := part_eraseIdx resource j
    have same : (chosenPlace? (resource.eraseIdx j) accept acceptLanguage).map (moved j 1) =
        chosenPlace? resource accept acceptLanguage := by
      refine part.map_chosenPlace? fun i chosen => mem_range_moved ?_
      have apart : i ≠ j := fun same => other (same ▸ chosen)
      omega
    exact ⟨part.chooseVariant?_eq same, same⟩
  · rintro front more back rfl
    exact choice_append front more back accept acceptLanguage
  · obtain ⟨more, registered, handled⟩ := register_eq resource contentTypes languages handler
    have appended := choice_append resource more [] accept acceptLanguage
    rw [List.append_nil, List.append_nil] at appended
    rw [registered]
    rcases appended with ⟨same, place⟩ | ⟨i, v, hv, chosen, place⟩
    · refine .inl ⟨same, place.trans ?_⟩
      cases old : chosenPlace? resource accept acceptLanguage with
      | none => rfl
      | some i => rw [Option.map_some, moved, if_pos (lt_of_chosenPlace? old)]
    · exact .inr ⟨_, v, Nat.le_add_right _ i, handled v (List.mem_of_getElem? hv), chosen, place⟩

/-- A page in two languages, and a default. -/
def translated : Resource String :=
  [⟨"text/html", "", "en", "page"⟩, ⟨"text/html", "", "fr", "page"⟩, ⟨"", "", "", "default"⟩]

/-- The French page is chosen with the English one and without it. -/
theorem others_do_not_count_translated :
    chosenPlace? translated (some "text/html") (some "fr-CA") ≠ some 0 ∧
      chooseVariant? (translated.eraseIdx 0) (some "text/html") (some "fr-CA") =
        chooseVariant? translated (some "text/html") (some "fr-CA") ∧
      (chosenPlace? (translated.eraseIdx 0) (some "text/html") (some "fr-CA")).map (moved 0 1) =
        chosenPlace? translated (some "text/html") (some "fr-CA") := by
  have other : chosenPlace? translated (some "text/html") (some "fr-CA") ≠ some 0 := by
    decide +kernel
  exact ⟨other, (others_do_not_count translated _ _).1 0 other⟩

end VariantCache.Negotiation
