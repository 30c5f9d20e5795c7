import VariantCache.Engine.Basic
import VariantCache.Proofs.Http.Request
import VariantCache.Proofs.Negotiation.Kind

/-!
# What a key stands for

A key folds letter case and blanks, and different variants of a resource can have one key.
Registering keeps content types folded and languages trimmed (`Variant.IsRegistered`), so
variants with one key are of one kind; and of a kind only the first variant is ever
chosen. Requests that lead to one key therefore ask for the same path and query and are
answered by the same entry of the resource (`Engine.same_entry_of_same_key`).
-/

namespace VariantCache

open Http Negotiation

/-! ### What is registered -/

/-- A variant as it is when it has been registered. -/
structure Variant.IsRegistered {H : Type} (v : Variant H) : Prop where
  contentType : CacheKey.fold v.contentType = v.contentType
  language : Text.trim v.language = v.language

/-- A handler with the content types and the languages that it is registered for. -/
structure Registration (H : Type) where
  contentTypes : List String
  languages : List String
  handler : H

namespace Resource

variable {H : Type} {resource : Resource H}

/-- The resource after some registrations. -/
def ofRegistrations (registrations : List (Registration H)) : Resource H :=
  registrations.foldl (fun resource r => resource.register r.contentTypes r.languages r.handler) []

/-- The media type of a content type is folded. -/
theorem fold_splitContentType (value : String) :
    CacheKey.fold (Variant.splitContentType value).1 = (Variant.splitContentType value).1 := by
  unfold Variant.splitContentType
  cases Text.splitAt ';' value.toList with
  | nil => decide +kernel
  | cons media parameters =>
    have folded : String.ofList (Text.lowered (Text.trimmed media)) =
        CacheKey.fold (String.ofList media) := by
      simp [CacheKey.fold, Text.lower, Text.trim]
    simp only [folded, CacheKey.fold_fold]

theorem isRegistered_register (h : ∀ v ∈ resource, v.IsRegistered)
    (contentTypes languages : List String) (handler : H) :
    ∀ v ∈ resource.register contentTypes languages handler, v.IsRegistered := by
  intro v hv
  unfold register at hv
  rcases List.mem_append.1 hv with old | new
  · exact h v old
  · obtain ⟨contentType, -, hv⟩ := List.mem_flatMap.1 new
    obtain ⟨language, -, rfl⟩ := List.mem_map.1 hv
    exact ⟨fold_splitContentType contentType, Text.trim_trim language⟩

theorem isRegistered_ofRegistrations (registrations : List (Registration H)) :
    ∀ v ∈ ofRegistrations registrations, v.IsRegistered := by
  unfold ofRegistrations
  suffices all : ∀ resource : Resource H, (∀ v ∈ resource, v.IsRegistered) →
      ∀ v ∈ registrations.foldl
        (fun resource r => resource.register r.contentTypes r.languages r.handler) resource,
        v.IsRegistered from all [] fun v hv => absurd hv List.not_mem_nil
  induction registrations with
  | nil => exact fun resource h => h
  | cons r registrations ih =>
    intro resource h
    exact ih _ (isRegistered_register h r.contentTypes r.languages r.handler)

end Resource

/-! ### What leads to one key -/

namespace Engine

variable {H : Type} {v w : Variant H} {first second : Request}

theorem keyOf_eq_iff :
    keyOf first v = keyOf second w ↔
      first.logicalKey = second.logicalKey ∧
        CacheKey.fold v.contentType = CacheKey.fold w.contentType ∧
        CacheKey.fold v.charset = CacheKey.fold w.charset ∧
        CacheKey.fold v.language = CacheKey.fold w.language := by
  simp only [keyOf, CacheKey.ofParts, CacheKey.mk.injEq]

/-- Variants with one key are of one kind. -/
theorem kind_eq_of_keyOf_eq (hv : v.IsRegistered) (hw : w.IsRegistered)
    (same : keyOf first v = keyOf second w) : v.kind = w.kind := by
  obtain ⟨-, contentTypes, -, languages⟩ := keyOf_eq_iff.1 same
  rw [hv.contentType, hw.contentType] at contentTypes
  rw [CacheKey.fold_of_trimmed hv.language, CacheKey.fold_of_trimmed hw.language] at languages
  exact Variant.kind_eq_iff.2 ⟨contentTypes, languages⟩

/-- **Requests with one key ask for the same and are answered by the same entry**, whatever
was registered and whatever they prefer. -/
theorem same_entry_of_same_key (registrations : List (Registration H))
    (hf : first.IsHttp) (hs : second.IsHttp)
    (hv : chooseVariant? (.ofRegistrations registrations) first.accept first.acceptLanguage = some v)
    (hw : chooseVariant? (.ofRegistrations registrations) second.accept second.acceptLanguage =
      some w)
    (same : keyOf first v = keyOf second w) :
    first.path = second.path ∧ first.query = second.query ∧ v = w ∧
      ∃ i, (Resource.ofRegistrations registrations)[i]? = some v ∧
        chosenPlace? (.ofRegistrations registrations) first.accept first.acceptLanguage = some i ∧
        chosenPlace? (.ofRegistrations registrations) second.accept second.acceptLanguage =
          some i := by
  have targets : first.path = second.path ∧ first.query = second.query :=
    Request.logicalKey_inj hf.questionMark_notMem_path hs.questionMark_notMem_path
      (keyOf_eq_iff.1 same).1
  have registered := Resource.isRegistered_ofRegistrations registrations
  have kinds : v.kind = w.kind :=
    kind_eq_of_keyOf_eq (registered v (mem_of_chooseVariant? hv))
      (registered w (mem_of_chooseVariant? hw)) same
  exact ⟨targets.1, targets.2, chosenPlace?_eq_of_kind hv hw kinds⟩

/-! ### An example -/

/-- A page, and a draft of it that is registered under the same names in other letter case. -/
def pageAndDraft : List (Registration String) :=
  [⟨["text/html"], ["en", "fr"], "page"⟩, ⟨["TEXT/HTML; charset=utf-8"], [" EN"], "draft"⟩]

/-- A request for a page in English, with an empty query. -/
def inEnglish : Request := ⟨"/about", none, none, some "en", none⟩

/-- A request for the same page under its whole address. -/
def byAddress : Request := ⟨"/about", none, some "text/*;q=0.5", some "EN-gb", none⟩

theorem isHttp_inEnglish : inEnglish.IsHttp :=
  ⟨Bytes.ofString "/about?", ⟨Bytes.ofString "/about", some []⟩,
    [("accept-language", Bytes.ofString "en")], by decide +kernel, by decide +kernel⟩

theorem isHttp_byAddress : byAddress.IsHttp :=
  ⟨Bytes.ofString "http://example/about", ⟨Bytes.ofString "/about", none⟩,
    [("accept", Bytes.ofString "text/*;q=0.5"), ("accept-language", Bytes.ofString "EN-gb")],
    by decide +kernel, by decide +kernel⟩

/-- Both requests have the key of the page, so the draft answers neither. -/
theorem same_entry_pageAndDraft :
    inEnglish.path = byAddress.path ∧ inEnglish.query = byAddress.query ∧
      (⟨"text/html", "", "en", "page"⟩ : Variant String) = ⟨"text/html", "", "en", "page"⟩ ∧
      ∃ i, (Resource.ofRegistrations pageAndDraft)[i]? = some ⟨"text/html", "", "en", "page"⟩ ∧
        chosenPlace? (.ofRegistrations pageAndDraft) inEnglish.accept inEnglish.acceptLanguage =
          some i ∧
        chosenPlace? (.ofRegistrations pageAndDraft) byAddress.accept byAddress.acceptLanguage =
          some i :=
  same_entry_of_same_key pageAndDraft isHttp_inEnglish isHttp_byAddress (by decide +kernel)
    (by decide +kernel) rfl

end Engine
end VariantCache
