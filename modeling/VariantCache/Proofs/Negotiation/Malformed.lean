import VariantCache.Proofs.Negotiation.Precedence
import VariantCache.Proofs.Preference.Order

/-!
# Malformed elements in a request

A malformed element of a header is not read, so a variant is chosen as without it
(`malformed_spares_choice`). There is one exception. A blank list of media ranges stands for all
media types, and whether it is blank is seen before its elements are read: one of which nothing can
be read, without being blank, asks for no media type, and languages are not looked at
(`unread_accept_hides_language`). In the list of languages there is no such difference.
-/

namespace VariantCache.Negotiation

open Preference Text

variable {H : Type} {resource : Resource H} {accept accept' acceptLanguage acceptLanguage' : Option String}
  {header : String} {i : Nat} {element : List Char}

/-! ### What the choice reads of a request -/

/-- Two requests get the same variant of a resource, at the same place. -/
def SameChoice (resource : Resource H) (accept acceptLanguage accept' acceptLanguage' : Option String) :
    Prop :=
  chooseVariant? resource accept acceptLanguage = chooseVariant? resource accept' acceptLanguage' ∧
    chosenPlace? resource accept acceptLanguage = chosenPlace? resource accept' acceptLanguage'

/-- Requests that get the same variant of every resource get it at the same place. -/
theorem sameChoice_of_chooseVariant? (same : ∀ {K : Type} (resource : Resource K),
      chooseVariant? resource accept acceptLanguage = chooseVariant? resource accept' acceptLanguage')
    (resource : Resource H) : SameChoice resource accept acceptLanguage accept' acceptLanguage' :=
  ⟨same resource, by rw [chosenPlace?, same, chosenPlace?]⟩

/-- The choice is made from the ranges of a request. -/
theorem sameChoice_of_ranges (types : mediaRanges accept = mediaRanges accept')
    (languages : languageRanges acceptLanguage = languageRanges acceptLanguage') (resource : Resource H) :
    SameChoice resource accept acceptLanguage accept' acceptLanguage' := by
  refine sameChoice_of_chooseVariant? (fun resource => ?_) resource
  simp only [chooseVariant?, types, languages]

theorem mediaRanges_of_blank (blank : trim header = "") : mediaRanges (some header) = mediaRanges none := by
  rw [mediaRanges_eq, mediaRanges_eq, acceptText, Option.elim_some, blank]
  rfl

theorem acceptText_of_written (written : trim header ≠ "") :
    acceptText (some header) = header := by
  rw [acceptText, Option.elim_some, if_neg (mt String.isEmpty_iff.1 written)]

theorem mediaRanges_of_not_blank (written : trim header ≠ "") :
    mediaRanges (some header) = ofHeader header := by
  rw [mediaRanges_eq, acceptText_of_written written]

/-! ### Without a malformed element -/

theorem languageRanges_withoutElement (here : elementAt? header i = some element)
    (malformed : Malformed element) :
    languageRanges (some (withoutElement i header)) = languageRanges (some header) := by
  simp only [languageRanges, Option.map_some, ofHeader_withoutElement here malformed]

/-- Nothing is left of a blank header without its one element. -/
theorem trim_withoutElement (here : elementAt? header i = some element) (blank : trim header = "") :
    trim (withoutElement i header) = "" := by
  obtain ⟨piece, one, -⟩ := List.map_eq_singleton_iff.1
    ((trimmed_eq_nil_iff header.toList).1 (String.ofList_eq_empty_iff.1 blank))
  rw [elementAt?, one, List.getElem?_singleton, Option.ite_none_right_eq_some] at here
  rw [withoutElement, without, one, here.1]
  rfl

theorem mediaRanges_withoutElement (here : elementAt? header i = some element)
    (malformed : Malformed element)
    (same : trim header = "" ∨ trim (withoutElement i header) ≠ "") :
    mediaRanges (some (withoutElement i header)) = mediaRanges (some header) := by
  rcases same with blank | written
  · rw [mediaRanges_of_blank blank, mediaRanges_of_blank (trim_withoutElement here blank)]
  · rw [mediaRanges_of_not_blank written, ofHeader_withoutElement here malformed,
      mediaRanges_of_not_blank fun blank => written (trim_withoutElement here blank)]

/-- Nothing is read of a header of which a blank one is left. -/
theorem mediaRanges_eq_nil (here : elementAt? header i = some element)
    (malformed : Malformed element) (written : trim header ≠ "")
    (blank : trim (withoutElement i header) = "") : mediaRanges (some header) = [] := by
  rw [mediaRanges_of_not_blank written, ← ofHeader_withoutElement here malformed,
    ofHeader_of_blank blank]

/-! ### No media types -/

/-- A request for no media type at all gets the first default variant, or else the first one. -/
theorem chooseVariant?_of_eq_nil (nothing : mediaRanges accept = []) :
    chooseVariant? resource accept acceptLanguage =
      (resource.find? (·.contentType == "")).or resource.head? := by
  have wanted (v : Variant H) : refuses [] v.contentType = false := rfl
  simp only [chooseVariant?, nothing, wanted, Bool.not_false, List.filter_true, List.filter_nil,
    byLanguage?, byType?, List.findSome?_nil, Option.orElse_eq_orElse, Option.orElse_eq_or,
    Option.none_or]

theorem chosenPlace?_of_eq_nil (nothing : mediaRanges accept = []) :
    chosenPlace? resource accept acceptLanguage =
      (resource.findIdx? (·.contentType == "")).or (resource.head?.map fun _ => 0) := by
  have head : ((placed resource).head?).map (·.handler.2) = resource.head?.map fun _ => 0 := by
    cases resource <;> rfl
  rw [chosenPlace?, chooseVariant?_of_eq_nil nothing, Option.map_or, head,
    List.findIdx?_eq_fst_find?_zipIdx, placed, List.find?_map, Option.map_map]
  rfl

/-! ### The choice -/

/-- **A malformed element spares the choice.** It may be taken out of the list of languages, and
out of the list of media ranges as well, except where a blank list is left of one that was not blank:
with the element no media type is asked for, so the first default variant is chosen or else the
first of all, whatever the languages; without it the request is one for all media types. -/
theorem malformed_spares_choice (here : elementAt? header i = some element)
    (malformed : Malformed element) (resource : Resource H) (accept acceptLanguage : Option String) :
    SameChoice resource accept (some (withoutElement i header)) accept (some header) ∧
    (trim header = "" ∨ trim (withoutElement i header) ≠ "" →
      SameChoice resource (some (withoutElement i header)) acceptLanguage (some header) acceptLanguage) ∧
    (trim header ≠ "" → trim (withoutElement i header) = "" →
      (chooseVariant? resource (some header) acceptLanguage =
          (resource.find? (·.contentType == "")).or resource.head? ∧
        chosenPlace? resource (some header) acceptLanguage =
          (resource.findIdx? (·.contentType == "")).or (resource.head?.map fun _ => 0)) ∧
      SameChoice resource (some (withoutElement i header)) acceptLanguage none acceptLanguage) := by
  refine ⟨?_, fun same => ?_, fun written blank => ⟨⟨?_, ?_⟩, ?_⟩⟩
  · exact sameChoice_of_ranges rfl (languageRanges_withoutElement here malformed) resource
  · exact sameChoice_of_ranges (mediaRanges_withoutElement here malformed same) rfl resource
  · exact chooseVariant?_of_eq_nil (mediaRanges_eq_nil here malformed written blank)
  · exact chosenPlace?_of_eq_nil (mediaRanges_eq_nil here malformed written blank)
  · exact sameChoice_of_ranges (mediaRanges_of_blank blank) rfl resource

/-- A page in two languages. -/
def bilingual : Resource String := Resource.register [] ["text/html"] ["en", "fr"] "html"

/-- A weight that is no number does not matter beside a media range. A header of one element, with
a weight that is too great, asks for nothing; without the element it is like a missing one. -/
theorem malformed_spares_choice_bilingual :
    Malformed " text/plain;q=high".toList ∧ Malformed "text/html;q=2".toList ∧
      SameChoice bilingual (some "text/html") (some "fr")
        (some "text/html, text/plain;q=high") (some "fr") ∧
      chosenPlace? bilingual (some "text/html;q=2") (some "fr") =
        (bilingual.findIdx? (·.contentType == "")).or (bilingual.head?.map fun _ => 0) ∧
      SameChoice bilingual (some "") (some "fr") none (some "fr") := by
  have noNumber : Malformed " text/plain;q=high".toList := parse?_eq_none_iff.1 (by decide +kernel)
  have tooGreat : Malformed "text/html;q=2".toList := parse?_eq_none_iff.1 (by decide +kernel)
  have second : elementAt? "text/html, text/plain;q=high" 1 = some " text/plain;q=high".toList := by
    decide +kernel
  have alone : elementAt? "text/html;q=2" 0 = some "text/html;q=2".toList := by decide +kernel
  have rest : withoutElement 1 "text/html, text/plain;q=high" = "text/html" := by decide +kernel
  have nothing : withoutElement 0 "text/html;q=2" = "" := by decide +kernel
  obtain ⟨-, spared, -⟩ := malformed_spares_choice second noNumber bilingual none (some "fr")
  obtain ⟨-, -, hidden⟩ := malformed_spares_choice alone tooGreat bilingual none (some "fr")
  rw [rest] at spared
  rw [nothing] at hidden
  obtain ⟨⟨-, place⟩, asMissing⟩ := hidden (by decide +kernel) rfl
  exact ⟨noNumber, tooGreat, spared (.inr (by decide +kernel)), place, asMissing⟩

/-- A malformed element may matter: a list of media ranges of which nothing can be read hides the
languages, and without its one element the French page is chosen. -/
theorem unread_accept_hides_language :
    elementAt? "text/html;q=2" 0 = some "text/html;q=2".toList ∧ Malformed "text/html;q=2".toList ∧
      withoutElement 0 "text/html;q=2" = "" ∧
      chosenPlace? bilingual (some "text/html;q=2") (some "fr") = some 0 ∧
      chosenPlace? bilingual (some "") (some "fr") = some 1 :=
  ⟨by decide +kernel, parse?_eq_none_iff.1 (by decide +kernel), by decide +kernel, by decide +kernel,
    by decide +kernel⟩

end VariantCache.Negotiation
