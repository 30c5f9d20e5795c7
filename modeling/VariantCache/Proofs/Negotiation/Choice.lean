import VariantCache.Negotiation.Content
import VariantCache.Negotiation.Encoding

/-!
# What is chosen for a request

A coding that is chosen is a real one (`isReal_of_chooseCoding?`), and a variant that is
chosen is one of the resource (`mem_of_chooseVariant?`).
-/

namespace VariantCache.Negotiation

/-- Only real codings are chosen. -/
theorem isReal_of_chooseCoding? {accept : Option String} {offered : List Coding} {coding : Coding}
    (h : chooseCoding? accept offered = some coding) : coding.isReal = true := by
  have isReal_of_codingOf? {listed : List Coding} {p : Preference}
      (hp : codingOf? offered listed p = some coding) : coding.isReal = true := by
    unfold codingOf? at hp
    split at hp
    · have found := List.find?_some hp
      rw [Bool.and_eq_true] at found
      exact found.1
    · simp only at hp
      split at hp
      · next allowed =>
        obtain rfl := Option.some.inj hp
        rcases allowed with same | real
        · rw [same]
          rfl
        · exact real.1
      · cases hp
  unfold chooseCoding? at h
  split at h
  · obtain rfl := Option.some.inj h
    rfl
  · split at h
    · obtain rfl := Option.some.inj h
      rfl
    · simp only at h
      split at h
      · next hc =>
        obtain rfl := Option.some.inj h
        obtain ⟨p, -, hp⟩ := List.exists_of_findSome?_eq_some hc
        exact isReal_of_codingOf? hp
      · split at h
        · cases h
        · obtain rfl := Option.some.inj h
          rfl

variable {H : Type} {resource : Resource H} {v : Variant H}

theorem mem_of_byLanguage? {fit : Fit} {ranges languages : List Preference}
    (h : byLanguage? fit ranges languages resource = some v) : v ∈ resource := by
  obtain ⟨range, -, hr⟩ := List.exists_of_findSome?_eq_some h
  obtain ⟨language, -, hl⟩ := List.exists_of_findSome?_eq_some hr
  exact List.mem_of_find?_eq_some hl

theorem mem_of_byType? {ranges : List Preference} (h : byType? ranges resource = some v) :
    v ∈ resource := by
  obtain ⟨range, -, hr⟩ := List.exists_of_findSome?_eq_some h
  exact List.mem_of_find?_eq_some hr

/-- The variant that is chosen is one of the resource. -/
theorem mem_of_chooseVariant? {accept acceptLanguage : Option String}
    (h : chooseVariant? resource accept acceptLanguage = some v) : v ∈ resource := by
  unfold chooseVariant? at h
  simp only [Option.orElse_eq_orElse, Option.orElse_eq_or, Option.or_eq_some_iff] at h
  suffices candidate : v ∈ resource.filter fun v => !refuses (mediaRanges accept) v.contentType from
    (List.mem_filter.1 candidate).1
  rcases h with h | ⟨-, h | ⟨-, h | ⟨-, h | ⟨-, h⟩⟩⟩⟩
  · exact mem_of_byLanguage? h
  · exact mem_of_byLanguage? h
  · exact mem_of_byType? h
  · exact List.mem_of_find?_eq_some h
  · exact List.mem_of_head? h

end VariantCache.Negotiation
