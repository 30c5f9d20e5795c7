import VariantCache.Proofs.Http.Lines
import VariantCache.Proofs.Negotiation.Coding
import VariantCache.Proofs.Negotiation.Malformed
import VariantCache.Proofs.Preference.Echo

/-!
# Preferences in several lines

A client may state what it prefers in several lines of a field, which mean what they mean in one line
with commas between them. A request takes the first line of each field alone (`first_line_counts_alone`),
so what a later one adds is lost, such as a refusal (`later_refusal_lost`). Where the later lines only
echo the first one nothing is lost: the same variants are refused as with joined lines
(`refused_iff_of_addsEchoes`), and the same variant and the same coding are chosen
(`sameChoice_of_addsEchoes`, `chooseCoding?_of_addsEchoes`).
-/

namespace VariantCache.Negotiation

open Http Http.Headers Preference Text

variable {H : Type} {accept accept' acceptLanguage acceptLanguage' : Option String}
  {acceptEncoding acceptEncoding' : Option String} {supported : List Coding} {lines : List String}

/-! ### Variants -/

/-- A missing list of languages is an empty one. -/
theorem languageRanges_eq (acceptLanguage : Option String) :
    languageRanges acceptLanguage = (ofHeader (acceptLanguage.getD "")).filter (! ·.isRefused) := by
  cases acceptLanguage with
  | none =>
    have blank : trim "" = "" := by decide
    rw [Option.getD_none, ofHeader_of_blank blank]
    rfl
  | some header => rfl

section Variants

variable (types : AddsEchoes (acceptText accept) (acceptText accept'))

include types

/-- Echoes refuse no variant that is not refused. -/
theorem refused_iff_of_addsEchoes (v : Variant H) : Refused accept' v ↔ Refused accept v := by
  have narrow (p : Preference) :
      (∀ q ∈ elements (acceptText accept').toList, covers q.name v.contentType = true →
        specificity q.name ≤ specificity p.name) ↔
      ∀ q ∈ elements (acceptText accept).toList, covers q.name v.contentType = true →
        specificity q.name ≤ specificity p.name :=
    types.forall_iff fun q q' echo => by rw [echo.name]
  unfold Refused
  simp only [narrow]
  exact types.exists_iff fun p p' echo => by rw [echo.name, echo.refused]

theorem candidates_of_addsEchoes (resource : Resource H) :
    (resource.filter fun v => !refuses (mediaRanges accept') v.contentType) =
      resource.filter fun v => !refuses (mediaRanges accept) v.contentType := by
  refine List.filter_congr fun v _ => ?_
  rw [Bool.not_inj_iff, Bool.eq_iff_iff, refuses_iff, refuses_iff]
  exact refused_iff_of_addsEchoes types v

theorem byType?_of_addsEchoes (candidates : Resource H) :
    byType? ((mediaRanges accept').filter (! ·.isRefused)) candidates =
      byType? ((mediaRanges accept).filter (! ·.isRefused)) candidates := by
  unfold byType?
  rw [mediaRanges_eq, mediaRanges_eq]
  exact types.findSome?_wanted fun p q name => by rw [name]

theorem byLanguage?_of_addsEchoes
    (languages : AddsEchoes (acceptLanguage.getD "") (acceptLanguage'.getD "")) (fit : Fit)
    (candidates : Resource H) :
    byLanguage? fit ((mediaRanges accept').filter (! ·.isRefused)) (languageRanges acceptLanguage')
        candidates =
      byLanguage? fit ((mediaRanges accept).filter (! ·.isRefused)) (languageRanges acceptLanguage)
        candidates := by
  have inner (range : Preference) :
      (languageRanges acceptLanguage').findSome? (fun language => candidates.find? fun v =>
        covers range.name v.contentType && speaks fit language.name v.language) =
      (languageRanges acceptLanguage).findSome? fun language => candidates.find? fun v =>
        covers range.name v.contentType && speaks fit language.name v.language := by
    rw [languageRanges_eq, languageRanges_eq]
    exact languages.findSome?_wanted fun p q name => by rw [name]
  unfold byLanguage?
  simp only [inner]
  rw [mediaRanges_eq, mediaRanges_eq]
  exact types.findSome?_wanted fun p q name => by rw [name]

/-- Echoes of media ranges and of languages do not change the choice. -/
theorem sameChoice_of_addsEchoes
    (languages : AddsEchoes (acceptLanguage.getD "") (acceptLanguage'.getD "")) (resource : Resource H) :
    SameChoice resource accept acceptLanguage accept' acceptLanguage' := by
  refine sameChoice_of_chooseVariant? (fun resource => ?_) resource
  simp only [chooseVariant?, candidates_of_addsEchoes types, byType?_of_addsEchoes types,
    byLanguage?_of_addsEchoes types languages]

end Variants

/-! ### Codings -/

/-- Echoes of codings do not change the choice. -/
theorem chooseCoding?_of_addsEchoes
    (h : AddsEchoes (codingText acceptEncoding) (codingText acceptEncoding')) (supported : List Coding) :
    chooseCoding? acceptEncoding supported = chooseCoding? acceptEncoding' supported := by
  have mentions (c : Coding) : (mentioned (ofHeader (codingText acceptEncoding'))).contains c =
      (mentioned (ofHeader (codingText acceptEncoding))).contains c := by
    rw [Bool.eq_iff_iff, List.contains_iff_mem, List.contains_iff_mem, mem_mentioned_ofHeader,
      mem_mentioned_ofHeader]
    exact h.exists_iff fun p q echo => by rw [Names, echo.name, Names]
  have asks : codingOf? supported (mentioned (ofHeader (codingText acceptEncoding'))) =
      codingOf? supported (mentioned (ofHeader (codingText acceptEncoding))) := by
    funext p
    simp only [codingOf?, mentions]
  have refusals : refusesIdentity (ofHeader (codingText acceptEncoding')) =
      refusesIdentity (ofHeader (codingText acceptEncoding)) := by
    unfold refusesIdentity
    rw [h.any_ofHeader, h.any_ofHeader]
    · exact fun p q echo => by rw [echo.name, echo.refused]
    · exact fun p q echo => by rw [isStar, echo.name, echo.refused, isStar]
  rw [chooseCoding?_eq_codingAmong?, chooseCoding?_eq_codingAmong?, codingAmong?, codingAmong?, asks,
    refusals, h.findSome?_wanted]
  intro p q name
  rw [codingOf?, codingOf?, isStar, isStar, name]

/-! ### Lines -/

/-- A comma is not blank. -/
theorem trim_intercalate_ne (first next : String) (rest : List String) :
    trim (", ".intercalate (first :: next :: rest)) ≠ "" := by
  intro blank
  obtain ⟨piece, one, -⟩ := List.map_eq_singleton_iff.1
    ((trimmed_eq_nil_iff _).1 (String.ofList_eq_empty_iff.1 blank))
  rw [toList_intercalate_cons_cons, splitAt_append] at one
  have pieces := congrArg List.length one
  have before := List.length_pos_of_ne_nil (splitAt_ne_nil ',' first.toList)
  have after := List.length_pos_of_ne_nil
    (splitAt_ne_nil ',' (' ' :: (", ".intercalate (next :: rest)).toList))
  rw [List.length_append, List.length_singleton] at pieces
  omega

/-- Of several lines the first is not blank. -/
def FirstWritten (lines : List String) : Prop := lines.length ≤ 1 ∨ trim (lines.headD "") ≠ ""

instance (lines : List String) : Decidable (FirstWritten lines) := inferInstanceAs (Decidable (_ ∨ _))

theorem addsEchoes_acceptText (echoes : OnlyEchoes lines) (written : FirstWritten lines) :
    AddsEchoes (acceptText lines.head?) (acceptText (joinedText lines)) := by
  cases lines with
  | nil => exact AddsEchoes.refl _
  | cons first later =>
    cases later with
    | nil =>
      rw [joinedText, String.intercalate_singleton, List.head?_cons]
      exact AddsEchoes.refl _
    | cons next rest =>
      have written : trim first ≠ "" := by
        rcases written with short | written
        · exact absurd short (by simp)
        · exact written
      rw [joinedText, List.head?_cons, acceptText_of_written written,
        acceptText_of_written (trim_intercalate_ne first next rest)]
      exact addsEchoes_intercalate echoes

theorem addsEchoes_getD (echoes : OnlyEchoes lines) :
    AddsEchoes (lines.head?.getD "") ((joinedText lines).getD "") := by
  have adds := addsEchoes_intercalate echoes
  cases lines with
  | nil => exact adds
  | cons first later => exact adds

/-- **The first line of a field counts alone.** Without the later ones the request is the same, and so
is everything that is chosen for it. So a request is answered like one with joined lines where the later
lines only echo the first one: every resource in the same variant, unless a first line that is blank
stands for all media types, and in the same coding whichever ones are supported. -/
theorem first_line_counts_alone {headers : Headers} (ascii : headers.RepeatsAscii) (target : Target) :
    Request.ofHttp? target headers.firstLines = Request.ofHttp? target headers ∧
    (Request.ofHttp? target headers.joined).isSome = (Request.ofHttp? target headers).isSome ∧
    ∀ split joined, Request.ofHttp? target headers = some split →
      Request.ofHttp? target headers.joined = some joined →
      split.logicalKey = joined.logicalKey ∧
      (OnlyEchoes (headers.lines "accept") → FirstWritten (headers.lines "accept") →
        OnlyEchoes (headers.lines "accept-language") → ∀ {H : Type} (resource : Resource H),
          SameChoice resource split.accept split.acceptLanguage joined.accept joined.acceptLanguage) ∧
      (OnlyEchoes (headers.lines "accept-encoding") → ∀ supported,
        chooseCoding? split.acceptEncoding supported = chooseCoding? joined.acceptEncoding supported) := by
  refine ⟨Request.ofHttp?_firstLines target headers, ?_, fun split joined hs hj => ?_⟩
  · rw [Request.ofHttp?_joined ascii, Request.ofHttp?_eq_map_head? ascii, Option.isSome_map,
      Option.isSome_map]
  · rw [Request.ofHttp?_eq_map_head? ascii] at hs
    rw [Request.ofHttp?_joined ascii] at hj
    obtain ⟨bare, given, rfl⟩ := Option.map_eq_some_iff.1 hs
    obtain ⟨bare', given', rfl⟩ := Option.map_eq_some_iff.1 hj
    obtain rfl := Option.some.inj (given.symm.trans given')
    refine ⟨rfl, fun types written languages H resource => ?_, fun codings supported => ?_⟩
    · exact sameChoice_of_addsEchoes (addsEchoes_acceptText types written) (addsEchoes_getD languages)
        resource
    · exact chooseCoding?_of_addsEchoes (addsEchoes_getD codings) supported

/-- The target of a request for the front page. -/
def frontPage : Target := ⟨Bytes.ofString "/", none⟩

/-- A header in which later lines state again what the first ones state. -/
def repeatedLines : Headers :=
  [("accept", Bytes.ofString "text/html, application/json;q=0.5"),
    ("accept-encoding", Bytes.ofString "gzip, *;q=0"), ("accept", Bytes.ofString "Application/JSON;q=0.2"),
    ("accept-encoding", Bytes.ofString "*;q=0.0,gzip;q=0.9")]

/-- Lines in which the same is stated again may be joined or not. -/
theorem first_line_counts_alone_repeated :
    repeatedLines.RepeatsAscii ∧ OnlyEchoes (repeatedLines.lines "accept") ∧
      FirstWritten (repeatedLines.lines "accept") ∧ OnlyEchoes (repeatedLines.lines "accept-language") ∧
      OnlyEchoes (repeatedLines.lines "accept-encoding") ∧
      SameChoice bilingual (some "text/html, application/json;q=0.5") none
        (some "text/html, application/json;q=0.5, Application/JSON;q=0.2") none ∧
      chooseCoding? (some "gzip, *;q=0") [.brotli, .gzip] =
        chooseCoding? (some "gzip, *;q=0, *;q=0.0,gzip;q=0.9") [.brotli, .gzip] := by
  have ascii : repeatedLines.RepeatsAscii := by decide +kernel
  have types : OnlyEchoes (repeatedLines.lines "accept") := by decide +kernel
  have written : FirstWritten (repeatedLines.lines "accept") := by decide +kernel
  have languages : OnlyEchoes (repeatedLines.lines "accept-language") := by decide +kernel
  have codings : OnlyEchoes (repeatedLines.lines "accept-encoding") := by decide +kernel
  have split : Request.ofHttp? frontPage repeatedLines =
      some ⟨"/", none, some "text/html, application/json;q=0.5", none, some "gzip, *;q=0"⟩ := by
    decide +kernel
  have joined : Request.ofHttp? frontPage repeatedLines.joined =
      some ⟨"/", none, some "text/html, application/json;q=0.5, Application/JSON;q=0.2", none,
        some "gzip, *;q=0, *;q=0.0,gzip;q=0.9"⟩ := by
    decide +kernel
  obtain ⟨-, -, alike⟩ := first_line_counts_alone ascii frontPage
  obtain ⟨-, sameVariant, sameCoding⟩ := alike _ _ split joined
  exact ⟨ascii, types, written, languages, codings, sameVariant types written languages bilingual,
    sameCoding codings [.brotli, .gzip]⟩

/-- A header of which a later line refuses what the first one asks for. -/
def refusedLater : Headers :=
  [("accept", Bytes.ofString "*/*"), ("accept", Bytes.ofString "text/html;q=0")]

/-- A page in two formats. -/
def formats : Resource String :=
  (Resource.register [] ["text/html"] [] "html").register ["application/json"] [] "json"

/-- A refusal in a later line is lost: the refused format is chosen, and the other one where the lines are
joined. -/
theorem later_refusal_lost :
    refusedLater.RepeatsAscii ∧
      ((Request.ofHttp? frontPage refusedLater).bind fun r =>
        chosenPlace? formats r.accept r.acceptLanguage) = some 0 ∧
      ((Request.ofHttp? frontPage refusedLater.joined).bind fun r =>
        chosenPlace? formats r.accept r.acceptLanguage) = some 1 := by
  have joined : Request.ofHttp? frontPage refusedLater.joined =
      some ⟨"/", none, some "*/*, text/html;q=0", none, none⟩ := by
    decide +kernel
  have ranges : mediaRanges (some "*/*, text/html;q=0") = elements "*/*, text/html;q=0".toList := by
    rw [mediaRanges_of_not_blank (by decide +kernel)]
    exact List.mergeSort_of_pairwise (by decide +kernel)
  refine ⟨by decide +kernel, by decide +kernel, ?_⟩
  rw [joined, Option.bind_some, chosenPlace?, chooseVariant?, ranges]
  decide +kernel

end VariantCache.Negotiation
