import VariantCache.Proofs.Engine.Keys
import VariantCache.Proofs.Negotiation.Spelling

/-!
# Spellings and keys

A content type is split alike in either letter case (`Variant.splitContentType_lower`), so the
traits of the variants that are registered are the same for registrations in other letter case
(`Resource.traits_ofRegistrations`). The kind of a variant and its key are read off its
traits. Requests that spell their headers differently are therefore answered by variants at one
place and under one key, also where the variants were registered in other letter case
(`Engine.choices_of_respelled`).
-/

namespace VariantCache

open Text Http Negotiation

namespace Variant

variable {H K : Type}

/-! ### Content types in either case -/

theorem charset?_lowered (parameters : List (List Char)) :
    charset? (parameters.map lowered) = (charset? parameters).map lowered := by
  have cut : cut? '=' ∘ lowered = fun part => (cut? '=' part).map (Prod.map lowered lowered) :=
    funext (cut?_lowered (by decide))
  simp only [charset?, List.filterMap_map, cut, ← List.map_filterMap, List.find?_map,
    Function.comp_def, Prod.map_fst, Prod.map_snd, trimmed_lowered, lowered_lowered, Option.map_map,
    strippedOf_lowered (c := '"') (by decide)]

/-- A content type is split alike in either letter case. -/
theorem splitContentType_lower (value : String) :
    splitContentType (lower value) = splitContentType value := by
  simp only [splitContentType, lower, String.toList_ofList,
    splitAt_lowered (toLower_eq_iff (d := ';') (by decide))]
  cases splitAt ';' value.toList with
  | nil => rfl
  | cons media parameters =>
    have charset : lowered ((charset? (parameters.map lowered)).getD []) =
        lowered ((charset? parameters).getD []) := by
      rw [charset?_lowered]
      cases charset? parameters with
      | none => rfl
      | some value => exact lowered_lowered value
    simp only [List.map_cons, trimmed_lowered, lowered_lowered, charset]

/-! ### Traits -/

/-- What the choice of a variant and its key depend on. -/
def traits (v : Variant H) : String × String × String := (v.contentType, v.charset, lower v.language)

theorem traits_eq_iff {v : Variant H} {w : Variant K} :
    v.traits = w.traits ↔ v.contentType = w.contentType ∧ v.charset = w.charset ∧
      lower v.language = lower w.language := by
  simp only [traits, Prod.mk.injEq]

end Variant

namespace Resource

variable {H K : Type}

/-- The names in one dimension; none stand for the default. -/
def names (listed : List String) : List String := if listed.isEmpty then [""] else listed

theorem map_lower_names (listed : List String) : (names listed).map lower = names (listed.map lower) := by
  cases listed <;> rfl

/-- The traits of the variants for some content types and some languages. -/
def traitsFor (contentTypes languages : List String) : List (String × String × String) :=
  (names contentTypes).flatMap fun contentType =>
    (names languages).map fun language =>
      ((Variant.splitContentType contentType).1, (Variant.splitContentType contentType).2,
        lower (trim language))

/-- Letter case does not count in what is registered. -/
theorem traitsFor_lower (contentTypes languages : List String) :
    traitsFor (contentTypes.map lower) (languages.map lower) = traitsFor contentTypes languages := by
  simp only [traitsFor, ← map_lower_names, List.flatMap_map, List.map_map, Function.comp_def,
    Variant.splitContentType_lower, trim_lower, lower_lower]

theorem traits_register (resource : Resource H) (contentTypes languages : List String) (handler : H) :
    (resource.register contentTypes languages handler).map Variant.traits =
      resource.map Variant.traits ++ traitsFor contentTypes languages := by
  simp only [register, List.map_append, List.map_flatMap, List.map_map]
  rfl

end Resource

/-! ### Registrations in other letter case -/

variable {H K : Type}

/-- The registrations are for the same types and languages, perhaps in other letter case and with
other handlers. -/
structure Registration.Recased (r : Registration H) (r' : Registration K) : Prop where
  contentTypes : r.contentTypes.map lower = r'.contentTypes.map lower
  languages : r.languages.map lower = r'.languages.map lower

/-- Registrations in other letter case give variants of the same traits in the same order. -/
theorem Resource.traits_ofRegistrations {registrations : List (Registration H)}
    {others : List (Registration K)} (recased : List.Forall₂ Registration.Recased registrations others) :
    (ofRegistrations registrations).map Variant.traits =
      (ofRegistrations others).map Variant.traits := by
  unfold ofRegistrations
  suffices step : ∀ (resource : Resource H) (other : Resource K),
      resource.map Variant.traits = other.map Variant.traits →
        (registrations.foldl
            (fun resource r => resource.register r.contentTypes r.languages r.handler)
            resource).map Variant.traits =
          (others.foldl (fun resource r => resource.register r.contentTypes r.languages r.handler)
            other).map Variant.traits from step [] [] rfl
  induction recased with
  | nil => exact fun resource other same => same
  | @cons r r' registrations others head tail ih =>
    intro resource other same
    refine ih _ _ ?_
    rw [traits_register, traits_register, same, ← traitsFor_lower r.contentTypes, head.contentTypes,
      head.languages, traitsFor_lower]

theorem Resource.kinds_eq_of_traits {resource : Resource H} {other : Resource K}
    (same : resource.map Variant.traits = other.map Variant.traits) :
    resource.map Variant.kind = other.map Variant.kind := by
  have kinds {H : Type} (resource : Resource H) :
      resource.map Variant.kind = (resource.map Variant.traits).map fun t => (t.1, t.2.2) := by
    rw [List.map_map]
    rfl
  rw [kinds, kinds, same]

/-! ### Requests -/

/-- The requests ask for the same, in headers of perhaps another spelling. -/
structure Http.Request.Respelled (first second : Request) : Prop where
  path : first.path = second.path
  query : first.query = second.query
  accept : SameHeader first.accept second.accept
  acceptLanguage : SameHeader first.acceptLanguage second.acceptLanguage
  acceptEncoding : SameHeader first.acceptEncoding second.acceptEncoding

namespace Engine

variable {first second : Request}

/-- Variants of the same traits have one key. -/
theorem keyOf_eq_of_traits {v : Variant H} {w : Variant K} (same : v.traits = w.traits)
    (asked : first.logicalKey = second.logicalKey) : keyOf first v = keyOf second w := by
  obtain ⟨contentType, charset, language⟩ := Variant.traits_eq_iff.1 same
  simp only [keyOf, CacheKey.ofParts, CacheKey.fold, asked, contentType, charset, ← trim_lower,
    language]

/-- **A choice does not depend on spelling.** Requests that spell their headers differently get
the same entry of a resource and the same coding; and where variants are registered in other
letter case, the choice falls on the same place and leads to the same key. -/
theorem choices_of_respelled (h : first.Respelled second) (resource : Resource H)
    (supported : List Coding) {registrations : List (Registration H)}
    {others : List (Registration K)}
    (recased : List.Forall₂ Registration.Recased registrations others) :
    (chooseVariant? resource first.accept first.acceptLanguage =
        chooseVariant? resource second.accept second.acceptLanguage ∧
      chosenPlace? resource first.accept first.acceptLanguage =
        chosenPlace? resource second.accept second.acceptLanguage) ∧
      chooseCoding? first.acceptEncoding supported =
        chooseCoding? second.acceptEncoding supported ∧
      chosenPlace? (.ofRegistrations registrations) first.accept first.acceptLanguage =
        chosenPlace? (.ofRegistrations others) second.accept second.acceptLanguage ∧
      (chooseVariant? (.ofRegistrations registrations) first.accept first.acceptLanguage).map
          (keyOf first) =
        (chooseVariant? (.ofRegistrations others) second.accept second.acceptLanguage).map
          (keyOf second) := by
  have asked : first.logicalKey = second.logicalKey := by
    rw [Request.logicalKey, h.path, h.query, Request.logicalKey]
  have traits := Resource.traits_ofRegistrations recased
  have place :
      chosenPlace? (.ofRegistrations registrations) first.accept first.acceptLanguage =
        chosenPlace? (.ofRegistrations others) second.accept second.acceptLanguage :=
    (chosenPlace?_eq h.accept h.acceptLanguage _).trans
      (chosenPlace?_eq_of_kinds (Resource.kinds_eq_of_traits traits) _ _)
  refine ⟨⟨chooseVariant?_eq h.accept h.acceptLanguage resource,
    chosenPlace?_eq h.accept h.acceptLanguage resource⟩,
    chooseCoding?_eq h.acceptEncoding supported, place, ?_⟩
  -- The keys are those of what stands at the place, and there the traits are the same.
  rw [chooseVariant?_eq_at_place, chooseVariant?_eq_at_place, place]
  cases chosenPlace? (.ofRegistrations others) second.accept second.acceptLanguage with
  | none => rfl
  | some i =>
    have atPlace := congrArg (·[i]?) traits
    simp only [List.getElem?_map] at atPlace
    simp only [Option.bind_some]
    cases hv : (Resource.ofRegistrations registrations)[i]? with
    | none =>
      rw [hv, Option.map_none, eq_comm, Option.map_eq_none_iff] at atPlace
      rw [atPlace]
      rfl
    | some v =>
      rw [hv, Option.map_some, eq_comm, Option.map_eq_some_iff] at atPlace
      obtain ⟨w, hw, same⟩ := atPlace
      rw [hw, Option.map_some, Option.map_some, keyOf_eq_of_traits same.symm asked]

/-! ### An example -/

/-- A page in two languages. -/
def page : List (Registration String) :=
  [⟨["text/html; charset=UTF-8"], ["en"], "page"⟩, ⟨["text/html"], ["fr"], "translation"⟩]

/-- The page, registered in other letter case. -/
def recasedPage : List (Registration String) :=
  [⟨["TEXT/html; Charset=utf-8"], ["EN"], "page"⟩, ⟨["Text/Html"], ["Fr"], "translation"⟩]

/-- A request for the page in French. -/
def inFrench : Request := ⟨"/about", none, some "text/html;q=0.5", some "fr", some "gzip,br;q=0"⟩

/-- The same request in another spelling. -/
def inFrenchRespelled : Request :=
  ⟨"/about", none, some " Text/HTML ;\tQ=0.5", some "FR", some "GZIP, Br;q=0"⟩

theorem recased_page : List.Forall₂ Registration.Recased page recasedPage :=
  .cons ⟨by decide +kernel, by decide +kernel⟩
    (.cons ⟨by decide +kernel, by decide +kernel⟩ .nil)

theorem respelled_accept : Respelled "text/html;q=0.5".toList " Text/HTML ;\tQ=0.5".toList := by
  have cased : Respelling "text/html;q=0.5".toList "Text/HTML;Q=0.5".toList :=
    .recased (by decide +kernel)
  have before : Respelling "Text/HTML;Q=0.5".toList "Text/HTML ;Q=0.5".toList :=
    .before (by decide : isBlank ' ') (.inr rfl) "Text/HTML".toList "Q=0.5".toList
  have after : Respelling "Text/HTML ;Q=0.5".toList "Text/HTML ;\tQ=0.5".toList :=
    .after (by decide : isBlank '\t') (.inr rfl) "Text/HTML ".toList "Q=0.5".toList
  have atStart : Respelling "Text/HTML ;\tQ=0.5".toList " Text/HTML ;\tQ=0.5".toList :=
    .atStart (by decide : isBlank ' ') "Text/HTML ;\tQ=0.5".toList
  exact ((Relation.EqvGen.rel _ _ cased).trans _ _ _ (.rel _ _ before)).trans _ _ _
    ((Relation.EqvGen.rel _ _ after).trans _ _ _ (.rel _ _ atStart))

theorem respelled_acceptEncoding : Respelled "gzip,br;q=0".toList "GZIP, Br;q=0".toList := by
  have cased : Respelling "gzip,br;q=0".toList "GZIP,Br;q=0".toList := .recased (by decide +kernel)
  have after : Respelling "GZIP,Br;q=0".toList "GZIP, Br;q=0".toList :=
    .after (by decide : isBlank ' ') (.inl rfl) "GZIP".toList "Br;q=0".toList
  exact (Relation.EqvGen.rel _ _ cased).trans _ _ _ (.rel _ _ after)

theorem respelled_inFrench : inFrench.Respelled inFrenchRespelled where
  path := rfl
  query := rfl
  accept := .some respelled_accept
  acceptLanguage := .some (.rel _ _ (.recased (by decide +kernel)))
  acceptEncoding := .some respelled_acceptEncoding

/-- Both requests get the same entry and coding, under one key. -/
theorem choices_inFrench :
    (chooseVariant? (.ofRegistrations page) inFrench.accept inFrench.acceptLanguage =
        chooseVariant? (.ofRegistrations page) inFrenchRespelled.accept
          inFrenchRespelled.acceptLanguage ∧
      chosenPlace? (.ofRegistrations page) inFrench.accept inFrench.acceptLanguage =
        chosenPlace? (.ofRegistrations page) inFrenchRespelled.accept
          inFrenchRespelled.acceptLanguage) ∧
      chooseCoding? inFrench.acceptEncoding Coding.supported =
        chooseCoding? inFrenchRespelled.acceptEncoding Coding.supported ∧
      chosenPlace? (.ofRegistrations page) inFrench.accept inFrench.acceptLanguage =
        chosenPlace? (.ofRegistrations recasedPage) inFrenchRespelled.accept
          inFrenchRespelled.acceptLanguage ∧
      (chooseVariant? (.ofRegistrations page) inFrench.accept inFrench.acceptLanguage).map
          (keyOf inFrench) =
        (chooseVariant? (.ofRegistrations recasedPage) inFrenchRespelled.accept
          inFrenchRespelled.acceptLanguage).map (keyOf inFrenchRespelled) :=
  choices_of_respelled respelled_inFrench (.ofRegistrations page) Coding.supported recased_page

example : chosenPlace? (.ofRegistrations recasedPage) inFrenchRespelled.accept
    inFrenchRespelled.acceptLanguage = some 1 := by
  decide +kernel

end Engine

end VariantCache
