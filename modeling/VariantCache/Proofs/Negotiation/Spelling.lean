import VariantCache.Negotiation.Encoding
import VariantCache.Proofs.Negotiation.Kind
import VariantCache.Proofs.Number.LetterCase
import VariantCache.Proofs.Text.Spelling

/-!
# Spellings and choices

An element of a header is chosen by its name and its weight (`Preference.essence`), and both can
be read off its folded parts (`Preference.essence_parse?`). The lists that two spellings of a
header give are therefore alike in all but the parameters (`Preference.alike_ofHeader`), and
no choice reads those: neither that of a variant (`Negotiation.chooseVariant?_eq`), nor that of
its place (`Negotiation.chosenPlace?_eq`), nor that of a coding (`Negotiation.chooseCoding?_eq`).
-/

namespace VariantCache

open Text Negotiation

/-! ### Cutting in either case -/

namespace Text

theorem cut?_lowered {separator : Char} (h : separator.toNat < 65) (cs : List Char) :
    cut? separator (lowered cs) = (cut? separator cs).map (Prod.map lowered lowered) := by
  induction cs with
  | nil => rfl
  | cons c rest ih =>
    simp only [lowered, List.map_cons, cut?, toLower_eq_iff h c]
    by_cases cut : c = separator
    · rw [if_pos cut, if_pos cut]
      rfl
    · rw [if_neg cut, if_neg cut, show rest.map Char.toLower = lowered rest from rfl, ih,
        Option.map_map, Option.map_map]
      rfl

theorem strippedOf_lowered {c : Char} (h : c.toNat < 65) (cs : List Char) :
    strippedOf c (lowered cs) = lowered (strippedOf c cs) := by
  have same : (fun d => d == c) ∘ Char.toLower = fun d => d == c := by
    funext d
    rw [Function.comp, Bool.eq_iff_iff, beq_iff_eq, beq_iff_eq, toLower_eq_iff h d]
  simp only [strippedOf, lowered, List.dropWhile_map, ← List.map_reverse, same]

end Text

/-! ### Preferences -/

namespace Preference

/-- What a choice sees of an element. -/
def essence (p : Preference) : String × Weight := (p.name, p.weight)

/-- The weight of an element after one more part of it. -/
def weigh (w : Weight) (part : List Char) : Option Weight :=
  if part.isEmpty then some w
  else if (splitParameter part).1 = ['q'] then Weight.parse? (splitParameter part).2
  else some w

/-- The essence of an element with the given parts. -/
def ofParts : List (List Char) → Option (String × Weight)
  | [] => none
  | name :: parts =>
    if name.isEmpty then none
    else (parts.foldlM weigh .one).map fun w => (String.ofList name, w)

theorem splitParameter_lowered (part : List Char) :
    splitParameter (lowered part) = ((splitParameter part).1, lowered (splitParameter part).2) := by
  have cut := cut?_lowered (show '='.toNat < 65 by decide) part
  simp only [splitParameter, cut]
  cases cut? '=' part with
  | none =>
    simp only [Option.map_none, Option.getD_none, trimmed_lowered, lowered_lowered]
    rfl
  | some sides =>
    simp only [Option.map_some, Option.getD_some, Prod.map_fst, Prod.map_snd, trimmed_lowered,
      lowered_lowered, strippedOf_lowered (c := '"') (by decide)]

theorem weigh_lowered (w : Weight) (part : List Char) : weigh w (lowered part) = weigh w part := by
  simp only [weigh, splitParameter_lowered, Weight.parse?_lowered]
  rw [show (lowered part).isEmpty = part.isEmpty from List.isEmpty_map]

theorem essence_addParameter? (p : Preference) (part : List Char) :
    (p.addParameter? part).map essence = (weigh p.weight part).map fun w => (p.name, w) := by
  unfold addParameter? weigh
  split
  · rfl
  · simp only
    split
    · rw [Option.map_map]
      rfl
    · rfl

theorem essence_addParameters? (p : Preference) (parts : List (List Char)) :
    (parts.foldlM addParameter? p).map essence =
      ((parts.map lowered).foldlM weigh p.weight).map fun w => (p.name, w) := by
  induction parts generalizing p with
  | nil => rfl
  | cons part parts ih =>
    have step := essence_addParameter? p part
    simp only [List.map_cons, List.foldlM_cons, weigh_lowered]
    cases hp : p.addParameter? part with
    | none =>
      rw [hp, Option.map_none, eq_comm, Option.map_eq_none_iff] at step
      rw [step]
      rfl
    | some q =>
      rw [hp, Option.map_some, eq_comm, Option.map_eq_some_iff] at step
      obtain ⟨w, hw, same⟩ := step
      obtain ⟨name, rfl⟩ := Prod.mk.inj same
      rw [hw, Option.bind_eq_bind, Option.bind_some, Option.bind_eq_bind, Option.bind_some, ih q, name]

/-- The essence of an element depends on its folded parts alone. -/
theorem essence_parse? (element : List Char) :
    (parse? element).map essence = ofParts (foldedParts element) := by
  have parts : foldedParts element = ((splitAt ';' element).map trimmed).map lowered := by
    rw [List.map_map]
    rfl
  rw [parts, parse?]
  cases (splitAt ';' element).map trimmed with
  | nil => rfl
  | cons name parts =>
    simp only [List.map_cons, ofParts]
    rw [show (lowered name).isEmpty = name.isEmpty from List.isEmpty_map]
    split
    · rfl
    · exact essence_addParameters? _ parts

theorem essence_elements (header : List Char) :
    (elements header).map essence = (foldedElements header).filterMap ofParts := by
  rw [elements, foldedElements, List.map_filterMap, List.filterMap_map]
  refine List.filterMap_congr fun element _ => ?_
  rw [Function.comp, essence_parse?, ignoresEnds_foldedParts.trimmed]

/-- The essence of a list depends on the folded elements of its header alone. -/
theorem essence_ofHeader (header : String) :
    (ofHeader header).map essence =
      ((foldedElements header.toList).filterMap ofParts).mergeSort
        fun a b => decide (b.2.rank ≤ a.2.rank) := by
  rw [← essence_elements]
  exact List.map_mergeSort fun a _ b _ => rfl

/-- The element without its parameters other than the weight. -/
def stripped (p : Preference) : Preference := ⟨p.name, [], p.weight⟩

/-- The lists agree in everything but the parameters of their elements. -/
def Alike (ps qs : List Preference) : Prop := ps.map stripped = qs.map stripped

theorem alike_of_essence {ps qs : List Preference} (h : ps.map essence = qs.map essence) :
    Alike ps qs := by
  have strip (ps : List Preference) :
      ps.map stripped = (ps.map essence).map fun e => ⟨e.1, [], e.2⟩ := by
    rw [List.map_map]
    rfl
  rw [Alike, strip, strip, h]

/-- Spellings of one header give alike lists. -/
theorem alike_ofHeader {a b : String} (h : Respelled a.toList b.toList) :
    Alike (ofHeader a) (ofHeader b) :=
  alike_of_essence (by rw [essence_ofHeader, essence_ofHeader, h.foldedElements_eq])

theorem Alike.filter_isRefused {ps qs : List Preference} (h : Alike ps qs) :
    Alike (ps.filter (! ·.isRefused)) (qs.filter (! ·.isRefused)) := by
  have strip (ps : List Preference) : (ps.filter (! ·.isRefused)).map stripped =
      (ps.map stripped).filter (! ·.isRefused) := by
    rw [List.filter_map]
    rfl
  rw [Alike, strip, strip, h]

/-- A function that does not read the parameters makes the same of alike lists. -/
theorem Alike.congr {α : Type} {ps qs : List Preference} {f : List Preference → α}
    (h : Alike ps qs) (blind : ∀ ps, f (ps.map stripped) = f ps) : f ps = f qs := by
  rw [← blind ps, h, blind]

end Preference

/-! ### Choices -/

namespace Negotiation

open Preference

variable {H : Type}

/-- Two texts of one header, or no header twice. -/
def SameHeader : Option String → Option String → Prop :=
  Option.Rel fun a b => Respelled a.toList b.toList

theorem isEmpty_trim_eq {a b : String} (h : Respelled a.toList b.toList) :
    (trim a).isEmpty = (trim b).isEmpty := by
  have blank (s : String) : (trim s).isEmpty ↔ foldedElements s.toList = [[[]]] := by
    rw [String.isEmpty_iff, trim, String.ofList_eq_empty_iff, trimmed_eq_nil_iff]
  rw [Bool.eq_iff_iff, blank, blank, h.foldedElements_eq]

theorem alike_mediaRanges {a b : Option String} (h : SameHeader a b) :
    Alike (mediaRanges a) (mediaRanges b) := by
  cases h with
  | none => rfl
  | some h =>
    simp only [mediaRanges, isEmpty_trim_eq h]
    split
    · rfl
    · exact alike_ofHeader h

theorem alike_languageRanges {a b : Option String} (h : SameHeader a b) :
    Alike (languageRanges a) (languageRanges b) := by
  cases h with
  | none => rfl
  | some h => exact (alike_ofHeader h).filter_isRefused

theorem narrowest_stripped (accept : List Preference) (mediaType : String) :
    narrowest (accept.map stripped) mediaType = (narrowest accept mediaType).map stripped := by
  simp only [narrowest, List.filter_map, List.all_map]
  rfl

theorem refuses_eq {ps qs : List Preference} (h : Alike ps qs) : refuses ps = refuses qs := by
  refine h.congr fun ps => ?_
  funext mediaType
  rw [refuses, narrowest_stripped, List.getLast?_map, Option.any_map]
  rfl

theorem byLanguage?_eq {ranges ranges' languages languages' : List Preference}
    (h : Alike ranges ranges') (h' : Alike languages languages') (fit : Fit)
    (candidates : Resource H) :
    byLanguage? fit ranges languages candidates = byLanguage? fit ranges' languages' candidates := by
  refine (h.congr (f := (byLanguage? fit · languages candidates)) fun ps => ?_).trans
    (h'.congr (f := (byLanguage? fit ranges' · candidates)) fun ps => ?_)
  · simp only [byLanguage?, List.findSome?_map]
    rfl
  · simp only [byLanguage?, List.findSome?_map]
    rfl

theorem byType?_eq {ranges ranges' : List Preference} (h : Alike ranges ranges')
    (candidates : Resource H) : byType? ranges candidates = byType? ranges' candidates := by
  refine h.congr (f := (byType? · candidates)) fun ps => ?_
  simp only [byType?, List.findSome?_map]
  rfl

/-- The variant that is chosen does not depend on how the headers are spelled. -/
theorem chooseVariant?_eq {accept accept' acceptLanguage acceptLanguage' : Option String}
    (types : SameHeader accept accept') (tags : SameHeader acceptLanguage acceptLanguage')
    (resource : Resource H) :
    chooseVariant? resource accept acceptLanguage =
      chooseVariant? resource accept' acceptLanguage' := by
  have ranges := alike_mediaRanges types
  have languages := alike_languageRanges tags
  simp only [chooseVariant?, refuses_eq ranges, byLanguage?_eq ranges.filter_isRefused languages,
    byType?_eq ranges.filter_isRefused]

theorem chosenPlace?_eq {accept accept' acceptLanguage acceptLanguage' : Option String}
    (types : SameHeader accept accept') (tags : SameHeader acceptLanguage acceptLanguage')
    (resource : Resource H) :
    chosenPlace? resource accept acceptLanguage = chosenPlace? resource accept' acceptLanguage' := by
  rw [chosenPlace?, chooseVariant?_eq types tags, chosenPlace?]

theorem codingOf?_stripped (supported listed : List Coding) (p : Preference) :
    codingOf? supported listed p.stripped = codingOf? supported listed p := by
  cases p
  rfl

/-- The coding that is chosen does not depend on how the header is spelled. -/
theorem chooseCoding?_eq {acceptEncoding acceptEncoding' : Option String}
    (h : SameHeader acceptEncoding acceptEncoding') (supported : List Coding) :
    chooseCoding? acceptEncoding supported = chooseCoding? acceptEncoding' supported := by
  cases h with
  | none => rfl
  | some h =>
    have alike := alike_ofHeader h
    have mentions : mentioned (ofHeader _) = mentioned (ofHeader _) := alike.congr fun ps => by
      simp only [mentioned, List.filter_map, List.map_map, Function.comp_def, stripped, isStar]
    have asks (listed : List Coding) := alike.filter_isRefused.congr
      (f := (·.findSome? (codingOf? supported listed))) fun ps => by
        rw [List.findSome?_map]
        exact congrArg (ps.findSome? ·) (funext fun p => codingOf?_stripped supported listed p)
    have refusals : refusesIdentity (ofHeader _) = refusesIdentity (ofHeader _) :=
      alike.congr fun ps => by
        simp only [refusesIdentity, List.any_map, Function.comp_def, stripped, isRefused, isStar]
    simp only [chooseCoding?, isEmpty_trim_eq h, mentions, asks, refusals]

end Negotiation

end VariantCache
