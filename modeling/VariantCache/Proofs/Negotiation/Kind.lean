import VariantCache.Proofs.Negotiation.Choice
import VariantCache.Proofs.Text.Folding

/-!
# Which variants can be chosen

The kind of a variant is what its choice depends on: the content type, and the language in
lower case. Every phase of the choice takes the first variant that it is content with, and
is content with all variants of a kind or with none; so the variant chosen is the first of
its kind (`first_of_chooseVariant?`). Variants may give way to others of their kinds
(`chooseVariant?_map`), with other handlers for example, and a choice can therefore be told by
its place on the list (`chosenPlace?`). The place is the same for resources with the same
kinds (`chosenPlace?_eq_of_kinds`), and two choices of one kind from one resource are at the
same place (`chosenPlace?_eq_of_kind`).
-/

namespace VariantCache

namespace Variant

variable {H K : Type}

/-- What the choice of a variant depends on. -/
def kind (v : Variant H) : String × String := (v.contentType, Text.lower v.language)

/-- The variant with another handler. -/
def withHandler (f : H → K) (v : Variant H) : Variant K :=
  ⟨v.contentType, v.charset, v.language, f v.handler⟩

@[simp] theorem kind_withHandler (f : H → K) (v : Variant H) :
    (v.withHandler f).kind = v.kind := rfl

theorem kind_eq_iff {v : Variant H} {w : Variant K} :
    v.kind = w.kind ↔
      v.contentType = w.contentType ∧ Text.lower v.language = Text.lower w.language :=
  Prod.mk.injEq _ _ _ _ ▸ Iff.rfl

end Variant

namespace Negotiation

variable {H K : Type} {resource : Resource H} {v w : Variant H}
  {accept acceptLanguage : Option String}

/-! ### The first of a kind -/

/-- A language range matches a language in whatever letter case. -/
theorem speaks_lower (fit : Fit) (range language : String) :
    speaks fit range (Text.lower language) = speaks fit range language := by
  have exact : Text.sameName range (Text.lower language) = Text.sameName range language := by
    simp [Text.sameName, Text.lower, Text.lowered_lowered]
  have tag :
      Text.lowered (primaryTag (Text.lower language)) = Text.lowered (primaryTag language) := by
    simp only [primaryTag, Text.lower, String.toList_ofList,
      Text.splitAt_lowered Text.toLower_eq_hyphen_iff, List.head?_map]
    cases (Text.splitAt '-' language.toList).head? with
    | none => rfl
    | some part => exact Text.lowered_lowered part
  have empty : (Text.lower language != "") = (language != "") := by
    rw [Bool.eq_iff_iff, bne_iff_ne, bne_iff_ne, Ne, Text.lower_eq_empty_iff]
  unfold speaks
  cases fit with
  | exact => simp only [exact]
  | primary => simp only [tag, empty]

theorem speaks_of_kind {v : Variant H} {w : Variant K} (same : v.kind = w.kind) (fit : Fit)
    (range : String) : speaks fit range v.language = speaks fit range w.language := by
  rw [← speaks_lower fit range v.language, ← speaks_lower fit range w.language,
    (Variant.kind_eq_iff.1 same).2]

/-- A phase of the choice is content with all variants of a kind or with none. -/
def RespectsKind (p : Variant H → Bool) : Prop := ∀ v w, v.kind = w.kind → p v = p w

theorem RespectsKind.ofType (p : String → Bool) :
    RespectsKind fun v : Variant H => p v.contentType := by
  intro v w same
  simp only [(Variant.kind_eq_iff.1 same).1]

theorem RespectsKind.and {p q : Variant H → Bool} (hp : RespectsKind p) (hq : RespectsKind q) :
    RespectsKind fun v => p v && q v := by
  intro v w same
  simp only [hp v w same, hq v w same]

theorem RespectsKind.speaks (fit : Fit) (range : String) :
    RespectsKind fun v : Variant H => Negotiation.speaks fit range v.language := by
  intro v w same
  exact speaks_of_kind same fit range

/-- The first variant that a phase is content with is the first of its kind. -/
theorem first_of_find? {p : Variant H → Bool} (respects : RespectsKind p)
    (h : resource.find? p = some v) : resource.find? (fun u => u.kind = v.kind) = some v := by
  obtain ⟨content, before, after, rfl, discontent⟩ := List.find?_eq_some_iff_append.1 h
  refine List.find?_eq_some_iff_append.2 ⟨decide_eq_true rfl, before, after, rfl, fun u hu => ?_⟩
  have refused := discontent u hu
  rw [Bool.not_eq_true'] at refused ⊢
  refine decide_eq_false fun same => ?_
  rw [respects u v same, content] at refused
  cases refused

/-- **The variant that is chosen is the first of its kind.** -/
theorem first_of_chooseVariant? (h : chooseVariant? resource accept acceptLanguage = some v) :
    resource.find? (fun u => u.kind = v.kind) = some v := by
  unfold chooseVariant? at h
  simp only [Option.orElse_eq_orElse, Option.orElse_eq_or, Option.or_eq_some_iff] at h
  generalize acceptable :
    (fun u : Variant H => !refuses (mediaRanges accept) u.contentType) = p at h
  have respects : RespectsKind p :=
    acceptable ▸ .ofType fun contentType => !refuses (mediaRanges accept) contentType
  -- In every phase the variant is the first of the candidates with some property of its kind.
  suffices found : ∃ q, RespectsKind q ∧ (resource.filter p).find? q = some v by
    obtain ⟨q, hq, hf⟩ := found
    rw [List.find?_filter] at hf
    refine first_of_find? (p := fun u => decide (p u = true ∧ q u = true)) ?_ hf
    intro u w same
    simp only [respects u w same, hq u w same]
  have byLanguage {fit : Fit} {ranges languages : List Preference}
      (found : byLanguage? fit ranges languages (resource.filter p) = some v) :
      ∃ q, RespectsKind q ∧ (resource.filter p).find? q = some v := by
    obtain ⟨range, -, hr⟩ := List.exists_of_findSome?_eq_some found
    obtain ⟨language, -, hl⟩ := List.exists_of_findSome?_eq_some hr
    exact ⟨_, (RespectsKind.ofType _).and (.speaks fit language.name), hl⟩
  rcases h with h | ⟨-, h | ⟨-, h | ⟨-, h | ⟨-, h⟩⟩⟩⟩
  · exact byLanguage h
  · exact byLanguage h
  · obtain ⟨range, -, hr⟩ := List.exists_of_findSome?_eq_some h
    exact ⟨_, RespectsKind.ofType _, hr⟩
  · exact ⟨_, RespectsKind.ofType (· == ""), h⟩
  · obtain ⟨rest, candidates⟩ := List.head?_eq_some_iff.1 h
    refine ⟨_, RespectsKind.ofType fun _ => true, ?_⟩
    rw [candidates, List.find?_cons_of_pos rfl]

/-! ### Changes that keep the kinds -/

section Map

variable {f : Variant H → Variant K}

theorem byLanguage?_map (keeps : ∀ v, (f v).kind = v.kind) (fit : Fit)
    (ranges languages : List Preference) (candidates : Resource H) :
    byLanguage? fit ranges languages (candidates.map f) =
      (byLanguage? fit ranges languages candidates).map f := by
  simp only [byLanguage?, List.find?_map, List.map_findSome?, Function.comp_def,
    (Variant.kind_eq_iff.1 (keeps _)).1, speaks_of_kind (keeps _)]

theorem byType?_map (keeps : ∀ v, (f v).kind = v.kind) (ranges : List Preference)
    (candidates : Resource H) : byType? ranges (candidates.map f) = (byType? ranges candidates).map f := by
  simp only [byType?, List.find?_map, List.map_findSome?, Function.comp_def,
    (Variant.kind_eq_iff.1 (keeps _)).1]

/-- Where every variant gives way to one of its kind, so does the variant that is chosen. -/
theorem chooseVariant?_map (keeps : ∀ v, (f v).kind = v.kind) (resource : Resource H)
    (accept acceptLanguage : Option String) :
    chooseVariant? (resource.map f) accept acceptLanguage =
      (chooseVariant? resource accept acceptLanguage).map f := by
  have types (v : Variant H) : (f v).contentType = v.contentType :=
    (Variant.kind_eq_iff.1 (keeps v)).1
  unfold chooseVariant?
  simp only [List.filter_map, Function.comp_def, types, byLanguage?_map keeps, byType?_map keeps,
    List.find?_map, List.head?_map, Option.orElse_eq_orElse, Option.orElse_eq_or, Option.map_or]

/-- The choice does not depend on the handlers. -/
theorem chooseVariant?_withHandlers (f : H → K) (resource : Resource H)
    (accept acceptLanguage : Option String) :
    chooseVariant? (resource.map (Variant.withHandler f)) accept acceptLanguage =
      (chooseVariant? resource accept acceptLanguage).map (Variant.withHandler f) :=
  chooseVariant?_map (fun v => Variant.kind_withHandler f v) resource accept acceptLanguage

end Map

/-! ### The place of the choice -/

/-- The variants, each with its place on the list beside the handler. -/
def placed (resource : Resource H) : Resource (H × Nat) :=
  resource.zipIdx.map fun (v, i) => v.withHandler (·, i)

/-- The place on the list of the variant that is chosen. -/
def chosenPlace? (resource : Resource H) (accept acceptLanguage : Option String) : Option Nat :=
  (chooseVariant? (placed resource) accept acceptLanguage).map (·.handler.2)

theorem withHandler_placed (resource : Resource H) :
    (placed resource).map (Variant.withHandler Prod.fst) = resource := by
  rw [placed, List.map_map]
  exact List.zipIdx_map_fst 0 resource

theorem getElem?_of_mem_placed {u : Variant (H × Nat)} (h : u ∈ placed resource) :
    resource[u.handler.2]? = some (u.withHandler Prod.fst) := by
  obtain ⟨⟨v, i⟩, member, rfl⟩ := List.mem_map.1 h
  exact List.mem_zipIdx_iff_getElem?.1 member

theorem chooseVariant?_placed (resource : Resource H) (accept acceptLanguage : Option String) :
    (chooseVariant? (placed resource) accept acceptLanguage).map (Variant.withHandler Prod.fst) =
      chooseVariant? resource accept acceptLanguage := by
  rw [← chooseVariant?_withHandlers, withHandler_placed]

/-- A variant of a kind, with a place for its handler. -/
def atPlace (kind : String × String) (place : Nat) : Variant Nat := ⟨kind.1, "", kind.2, place⟩

/-- The place depends on the kinds of the variants alone. -/
theorem chosenPlace?_eq_of_kinds {other : Resource K}
    (same : resource.map Variant.kind = other.map Variant.kind)
    (accept acceptLanguage : Option String) :
    chosenPlace? resource accept acceptLanguage = chosenPlace? other accept acceptLanguage := by
  have places {H : Type} (resource : Resource H) :
      chosenPlace? resource accept acceptLanguage =
        (chooseVariant? ((resource.map Variant.kind).zipIdx.map fun (kind, i) => atPlace kind i)
          accept acceptLanguage).map (·.handler) := by
    have keeps (u : Variant (H × Nat)) : (atPlace u.kind u.handler.2).kind = u.kind := by
      simp only [atPlace, Variant.kind, Text.lower_lower]
    have listed : (placed resource).map (fun u => atPlace u.kind u.handler.2) =
        (resource.map Variant.kind).zipIdx.map fun (kind, i) => atPlace kind i := by
      rw [placed, List.map_map, List.zipIdx_map, List.map_map]
      rfl
    rw [← listed, chooseVariant?_map keeps, Option.map_map, chosenPlace?]
    rfl
  rw [places resource, places other, same]

/-- What is chosen is what stands at the place. -/
theorem chooseVariant?_eq_at_place (resource : Resource H) (accept acceptLanguage : Option String) :
    chooseVariant? resource accept acceptLanguage =
      (chosenPlace? resource accept acceptLanguage).bind (resource[·]?) := by
  rw [← chooseVariant?_placed, chosenPlace?]
  cases h : chooseVariant? (placed resource) accept acceptLanguage with
  | none => rfl
  | some u => exact (getElem?_of_mem_placed (mem_of_chooseVariant? h)).symm

/-- **Two choices of one kind are one choice**, whatever the requests prefer. -/
theorem chosenPlace?_eq_of_kind {accept' acceptLanguage' : Option String}
    (hv : chooseVariant? resource accept acceptLanguage = some v)
    (hw : chooseVariant? resource accept' acceptLanguage' = some w) (same : v.kind = w.kind) :
    v = w ∧ ∃ i, resource[i]? = some v ∧ chosenPlace? resource accept acceptLanguage = some i ∧
      chosenPlace? resource accept' acceptLanguage' = some i := by
  rw [← chooseVariant?_placed] at hv hw
  obtain ⟨a, ha, rfl⟩ := Option.map_eq_some_iff.1 hv
  obtain ⟨b, hb, rfl⟩ := Option.map_eq_some_iff.1 hw
  have first := first_of_chooseVariant? ha
  rw [show a.kind = b.kind from same, first_of_chooseVariant? hb] at first
  obtain rfl := Option.some.inj first
  refine ⟨rfl, b.handler.2, getElem?_of_mem_placed (mem_of_chooseVariant? hb), ?_, ?_⟩
  · rw [chosenPlace?, ha, Option.map_some]
  · rw [chosenPlace?, hb, Option.map_some]

end Negotiation
end VariantCache
