import VariantCache.Proofs.Negotiation.Kind

/-!
# Which variant comes first

What a request says gives grounds to choose a variant: a media range and a language range that it
fits, a media range alone, that it is the default variant, or that it is there at all. The grounds
are ordered (`Ground.Before`), first by their kind and then by the weights of the ranges, where the
place in the header decides between equal weights. The variant that is chosen is the one that the
first of the grounds speaks for, and the first of the variants that this one speaks for
(`choice_comes_first`); those that the request refuses do not count.

The choice goes through lists of ranges that were sorted by weight. With the places in the header
beside them the lists are strictly ordered (`pairwise_ranked`), and so is the list of all grounds
that they make up (`orderedFrom_grounds`): a search that goes through an ordered list finds the least
(`findSome?_eq_some_iff_least`).
-/

namespace VariantCache.Negotiation

variable {H K : Type} {resource : Resource H} {accept acceptLanguage : Option String}

/-! ### What a request says -/

/-- The media ranges of a request as a text. To say nothing is to accept everything. -/
def acceptText (accept : Option String) : String :=
  accept.elim "*/*" fun header => if (Text.trim header).isEmpty then "*/*" else header

/-- A request refuses a variant when one of the narrowest media ranges that cover it does. -/
def Refused (accept : Option String) (v : Variant H) : Prop :=
  ∃ p ∈ Preference.elements (acceptText accept).toList,
    covers p.name v.contentType = true ∧ p.isRefused = true ∧
    ∀ q ∈ Preference.elements (acceptText accept).toList,
      covers q.name v.contentType = true → specificity q.name ≤ specificity p.name

/-- An element of a header, and its place there. -/
abbrev Wish := Preference × Nat

/-- The elements of a header that are not refusals. -/
def wishes (header : String) : List Wish :=
  (Preference.elements header.toList).zipIdx.filter fun wish => !wish.1.isRefused

/-- The one element is heavier, or as heavy and written first. -/
def Precedes (a b : Wish) : Prop :=
  b.1.weight.rank < a.1.weight.rank ∨ a.1.weight.rank = b.1.weight.rank ∧ a.2 < b.2

theorem Precedes.asymm {a b : Wish} (h : Precedes a b) : ¬Precedes b a := by
  unfold Precedes at *
  omega

/-! ### Grounds -/

/-- Exact matches come before primary ones. -/
def Fit.phase : Fit → Nat
  | exact => 0
  | primary => 1

/-- What may speak for a variant. -/
inductive Ground where
  /-- A media range covers its type, and a language range fits its language. -/
  | inLanguage (fit : Fit) (range language : Wish)
  /-- A media range covers its type. -/
  | ofType (range : Wish)
  /-- It is of no type. -/
  | byDefault
  /-- It is there. -/
  | atAll

namespace Ground

/-- The request has these ranges. -/
def Given (accept acceptLanguage : Option String) : Ground → Prop
  | inLanguage _ range language =>
    range ∈ wishes (acceptText accept) ∧ ∃ header, acceptLanguage = some header ∧ language ∈ wishes header
  | ofType range => range ∈ wishes (acceptText accept)
  | byDefault | atAll => True

/-- The ground speaks for a variant. -/
def fits (v : Variant H) : Ground → Bool
  | inLanguage fit range language =>
    covers range.1.name v.contentType && speaks fit language.1.name v.language
  | ofType range => covers range.1.name v.contentType
  | byDefault => v.contentType == ""
  | atAll => true

@[simp] theorem fits_withHandler (f : H → K) (v : Variant H) (g : Ground) :
    g.fits (v.withHandler f) = g.fits v := by
  cases g <;> rfl

/-- Languages come before types, the exact ones first, and types before the default and the rest. -/
def phase : Ground → Nat
  | inLanguage fit _ _ => fit.phase
  | ofType _ => 2
  | byDefault => 3
  | atAll => 4

/-- The order of the grounds. The media range goes before the language range. -/
inductive Before : Ground → Ground → Prop where
  | phase {g h : Ground} (lt : g.phase < h.phase) : Before g h
  | range {fit : Fit} {range range' language language' : Wish} (h : Precedes range range') :
    Before (inLanguage fit range language) (inLanguage fit range' language')
  | language {fit : Fit} {range language language' : Wish} (h : Precedes language language') :
    Before (inLanguage fit range language) (inLanguage fit range language')
  | type {range range' : Wish} (h : Precedes range range') : Before (ofType range) (ofType range')

theorem Before.asymm {g h : Ground} (gh : g.Before h) : ¬h.Before g := by
  intro hg
  cases gh with
  | phase lt =>
    cases hg with
    | phase lt' => exact Nat.lt_asymm lt lt'
    | range | language | type => exact Nat.lt_irrefl _ lt
  | range before =>
    cases hg with
    | phase lt => exact Nat.lt_irrefl _ lt
    | range after => exact before.asymm after
    | language => exact before.asymm before
  | language before =>
    cases hg with
    | phase lt => exact Nat.lt_irrefl _ lt
    | range after => exact after.asymm after
    | language after => exact before.asymm after
  | type before =>
    cases hg with
    | phase lt => exact Nat.lt_irrefl _ lt
    | type after => exact before.asymm after

end Ground

/-! ### The variant that comes first -/

/-- The ground speaks for the variant at a place, and the request does not refuse that one. -/
def SpeaksFor (resource : Resource H) (accept : Option String) (g : Ground) (i : Nat) : Prop :=
  ∃ v, resource[i]? = some v ∧ ¬Refused accept v ∧ g.fits v = true

/-- One of the grounds speaks for the variant at a place, and no other one that is given speaks for
any variant before that. -/
def ComesFirst (resource : Resource H) (accept acceptLanguage : Option String) (i : Nat) : Prop :=
  ∃ g : Ground, g.Given accept acceptLanguage ∧ SpeaksFor resource accept g i ∧
    ∀ (h : Ground) (j : Nat), h.Given accept acceptLanguage → SpeaksFor resource accept h j →
      g.Before h ∨ g = h ∧ i ≤ j

/-! ### Refusals -/

theorem mediaRanges_eq (accept : Option String) :
    mediaRanges accept = Preference.ofHeader (acceptText accept) := by
  cases accept with
  | none => rw [mediaRanges, acceptText, Option.elim_none]
  | some header => rw [mediaRanges, acceptText, Option.elim_some]

theorem mem_mediaRanges {p : Preference} :
    p ∈ mediaRanges accept ↔ p ∈ Preference.elements (acceptText accept).toList := by
  rw [mediaRanges_eq, Preference.ofHeader, List.mem_mergeSort]

theorem comesFirst_trans (a b c : Preference) (ab : a.comesFirst b = true)
    (bc : b.comesFirst c = true) : a.comesFirst c = true :=
  decide_eq_true (Nat.le_trans (of_decide_eq_true bc) (of_decide_eq_true ab))

theorem comesFirst_total (a b : Preference) : (a.comesFirst b || b.comesFirst a) = true := by
  simp only [Preference.comesFirst, Bool.or_eq_true, decide_eq_true_eq]
  exact Nat.le_total _ _

/-- The media ranges are sorted by weight. -/
theorem pairwise_mediaRanges :
    (mediaRanges accept).Pairwise fun a b => b.weight.rank ≤ a.weight.rank := by
  rw [mediaRanges_eq]
  exact (List.pairwise_mergeSort comesFirst_trans comesFirst_total _).imp fun h => of_decide_eq_true h

theorem mem_narrowest {ranges : List Preference} {mediaType : String} {p : Preference} :
    p ∈ narrowest ranges mediaType ↔ p ∈ ranges ∧ covers p.name mediaType = true ∧
      ∀ q ∈ ranges, covers q.name mediaType = true → specificity q.name ≤ specificity p.name := by
  simp only [narrowest, List.mem_filter, List.all_eq_true, decide_eq_true_eq, and_assoc, and_imp]

/-- The last element of a list that is sorted by weight is a refusal when any of them is. -/
theorem getLast?_isRefused {list : List Preference}
    (sorted : list.Pairwise fun a b => b.weight.rank ≤ a.weight.rank) :
    list.getLast?.any (·.isRefused) = true ↔ ∃ p ∈ list, p.isRefused = true := by
  rcases List.eq_nil_or_concat' list with rfl | ⟨front, last, rfl⟩
  · simp
  · rw [List.getLast?_concat, Option.any_some]
    refine ⟨fun h => ⟨last, List.mem_concat_self, h⟩, fun ⟨p, hp, refused⟩ => ?_⟩
    obtain ⟨-, -, lighter⟩ := List.pairwise_append.1 sorted
    rcases List.mem_append.1 hp with hp | hp
    · have le := lighter p hp last (List.mem_singleton_self last)
      simp only [Preference.isRefused, Weight.isZero, beq_iff_eq] at refused ⊢
      omega
    · rwa [List.mem_singleton.1 hp] at refused

/-- A request refuses a variant when one of the narrowest ranges that cover it does. -/
theorem refuses_iff (v : Variant H) :
    refuses (mediaRanges accept) v.contentType = true ↔ Refused accept v := by
  have sorted : (narrowest (mediaRanges accept) v.contentType).Pairwise
      fun a b => b.weight.rank ≤ a.weight.rank :=
    (pairwise_mediaRanges.sublist List.filter_sublist).sublist List.filter_sublist
  rw [refuses, getLast?_isRefused sorted]
  refine exists_congr fun p => ?_
  simp only [mem_narrowest, mem_mediaRanges, and_assoc]
  exact and_congr_right fun _ => and_congr_right fun _ => and_comm

/-! ### Sorted wishes -/

/-- The elements of a header that are not refusals, heaviest first. -/
def ranked (header : String) : List Wish :=
  ((Preference.elements header.toList).zipIdx.mergeSort (List.zipIdxLE Preference.comesFirst)).filter
    fun wish => !wish.1.isRefused

theorem mem_ranked {header : String} {wish : Wish} : wish ∈ ranked header ↔ wish ∈ wishes header := by
  simp only [ranked, wishes, List.mem_filter, List.mem_mergeSort]

/-- Without the places it is the list that the choice goes through. -/
theorem map_fst_ranked (header : String) :
    (ranked header).map Prod.fst = (Preference.ofHeader header).filter (! ·.isRefused) := by
  rw [Preference.ofHeader, ← List.mergeSort_zipIdx, List.filter_map]
  rfl

theorem precedes_of_zipIdxLE {a b : Wish} (h : List.zipIdxLE Preference.comesFirst a b = true)
    (apart : a.2 ≠ b.2) : Precedes a b := by
  simp only [List.zipIdxLE, Preference.comesFirst, decide_eq_true_eq] at h
  split at h
  · next heavier =>
    split at h
    · next lighter =>
      exact .inr ⟨Nat.le_antisymm lighter heavier, Nat.lt_of_le_of_ne (of_decide_eq_true h) apart⟩
    · next strictly => exact .inl (Nat.lt_of_not_le strictly)
  · cases h

/-- No two elements are in the same place, so one of them precedes the other. -/
theorem pairwise_ranked (header : String) : (ranked header).Pairwise Precedes := by
  refine List.Pairwise.sublist List.filter_sublist ?_
  generalize Preference.elements header.toList = elements
  have sorted := List.pairwise_mergeSort (List.zipIdxLE_trans comesFirst_trans)
    (List.zipIdxLE_total comesFirst_total) elements.zipIdx
  have apart : (elements.zipIdx.mergeSort (List.zipIdxLE Preference.comesFirst)).Pairwise
      fun a b => a.2 ≠ b.2 := by
    refine ((List.mergeSort_perm _ _).pairwise_iff fun h => h.symm).2 ?_
    exact List.pairwise_map.1 (List.nodup_zipIdx_map_snd elements)
  exact (sorted.and apart).imp fun ⟨le, ne⟩ => precedes_of_zipIdxLE le ne

/-! ### All grounds in order -/

/-- The elements of the language header that are not refusals, heaviest first. -/
def rankedLanguages (acceptLanguage : Option String) : List Wish :=
  (acceptLanguage.map ranked).getD []

theorem mem_rankedLanguages {wish : Wish} :
    wish ∈ rankedLanguages acceptLanguage ↔
      ∃ header, acceptLanguage = some header ∧ wish ∈ wishes header := by
  cases acceptLanguage with
  | none => simp [rankedLanguages]
  | some header => simp [rankedLanguages, mem_ranked]

theorem pairwise_rankedLanguages : (rankedLanguages acceptLanguage).Pairwise Precedes := by
  cases acceptLanguage with
  | none => exact List.Pairwise.nil
  | some header => exact pairwise_ranked header

theorem map_fst_rankedLanguages (acceptLanguage : Option String) :
    (rankedLanguages acceptLanguage).map Prod.fst = languageRanges acceptLanguage := by
  cases acceptLanguage with
  | none => rfl
  | some header =>
    rw [rankedLanguages, languageRanges, Option.map_some, Option.map_some, Option.getD_some,
      Option.getD_some, map_fst_ranked]

/-- The grounds of one fit. -/
def languageGrounds (fit : Fit) (ranges languages : List Wish) : List Ground :=
  ranges.flatMap fun range => languages.map fun language => .inLanguage fit range language

/-- All the grounds that a request gives, in their order. -/
def grounds (accept acceptLanguage : Option String) : List Ground :=
  let ranges := ranked (acceptText accept)
  let languages := rankedLanguages acceptLanguage
  languageGrounds .exact ranges languages ++ (languageGrounds .primary ranges languages ++
    (ranges.map Ground.ofType ++ ([Ground.byDefault] ++ [Ground.atAll])))

theorem mem_languageGrounds {fit : Fit} {ranges languages : List Wish} {g : Ground} :
    g ∈ languageGrounds fit ranges languages ↔
      ∃ range ∈ ranges, ∃ language ∈ languages, .inLanguage fit range language = g := by
  simp only [languageGrounds, List.mem_flatMap, List.mem_map]

theorem mem_grounds {g : Ground} :
    g ∈ grounds accept acceptLanguage ↔ g.Given accept acceptLanguage := by
  simp only [grounds, List.mem_append, mem_languageGrounds, List.mem_map, List.mem_singleton,
    mem_ranked, mem_rankedLanguages]
  cases g with
  | inLanguage fit range language => cases fit <;> simp [Ground.Given]
  | ofType range => simp [Ground.Given]
  | byDefault | atAll => simp [Ground.Given]

/-- Grounds of one fit are ordered by their media ranges, and then by their language ranges. -/
theorem pairwise_languageGrounds (fit : Fit) {ranges languages : List Wish}
    (hr : ranges.Pairwise Precedes) (hl : languages.Pairwise Precedes) :
    (languageGrounds fit ranges languages).Pairwise Ground.Before := by
  refine List.pairwise_flatMap.2 ⟨fun range _ => ?_, hr.imp fun before g hg h hh => ?_⟩
  · exact List.pairwise_map.2 (hl.imp .language)
  · obtain ⟨_, -, rfl⟩ := List.mem_map.1 hg
    obtain ⟨_, -, rfl⟩ := List.mem_map.1 hh
    exact .range before

theorem phase_of_mem_languageGrounds {fit : Fit} {ranges languages : List Wish} :
    ∀ g ∈ languageGrounds fit ranges languages, g.phase = fit.phase := by
  intro g hg
  obtain ⟨_, -, _, -, rfl⟩ := mem_languageGrounds.1 hg
  rfl

/-- A list of grounds in their order, of a phase and those after it. -/
structure OrderedFrom (n : Nat) (list : List Ground) : Prop where
  pairwise : list.Pairwise Ground.Before
  phase : ∀ g ∈ list, n ≤ g.phase

/-- Grounds of one phase may be put in front of those of the phases after it. -/
theorem OrderedFrom.append {n : Nat} {front back : List Ground} (sorted : front.Pairwise Ground.Before)
    (same : ∀ g ∈ front, g.phase = n) (h : OrderedFrom (n + 1) back) :
    OrderedFrom n (front ++ back) where
  pairwise := List.pairwise_append.2
    ⟨sorted, h.pairwise, fun g hg g' hg' => .phase (same g hg ▸ h.phase g' hg')⟩
  phase := List.forall_mem_append.2
    ⟨fun g hg => (same g hg).ge, fun g hg => Nat.le_of_succ_le (h.phase g hg)⟩

theorem orderedFrom_grounds : OrderedFrom 0 (grounds accept acceptLanguage) := by
  have ranges := pairwise_ranked (acceptText accept)
  have languages : (rankedLanguages acceptLanguage).Pairwise Precedes := pairwise_rankedLanguages
  refine .append (pairwise_languageGrounds .exact ranges languages) phase_of_mem_languageGrounds ?_
  refine .append (pairwise_languageGrounds .primary ranges languages) phase_of_mem_languageGrounds ?_
  refine .append (List.pairwise_map.2 (ranges.imp .type)) (List.forall_mem_map.2 fun _ _ => rfl) ?_
  refine .append (List.pairwise_singleton _ _) (List.forall_mem_singleton.2 rfl) ?_
  exact ⟨List.pairwise_singleton _ _, List.forall_mem_singleton.2 (Nat.le_refl 4)⟩

/-- A search through lists one after the other is a search for the first that has something. -/
theorem findSome?_flatMap {α β γ : Type} (l : List α) (f : α → List β) (p : β → Option γ) :
    (l.flatMap f).findSome? p = l.findSome? fun a => (f a).findSome? p := by
  induction l with
  | nil => rfl
  | cons a l ih =>
    rw [List.flatMap_cons, List.findSome?_append, List.findSome?_cons, ih]
    cases (f a).findSome? p <;> rfl

theorem byLanguage?_eq_findSome? (fit : Fit) (ranges languages : List Wish) (candidates : Resource H) :
    byLanguage? fit (ranges.map Prod.fst) (languages.map Prod.fst) candidates =
      (languageGrounds fit ranges languages).findSome? fun g => candidates.find? g.fits := by
  simp only [byLanguage?, languageGrounds, findSome?_flatMap, List.findSome?_map]
  rfl

theorem byType?_eq_findSome? (ranges : List Wish) (candidates : Resource H) :
    byType? (ranges.map Prod.fst) candidates =
      (ranges.map Ground.ofType).findSome? fun g => candidates.find? g.fits := by
  rw [byType?, List.findSome?_map, List.findSome?_map]
  rfl

/-- The choice goes through the grounds. -/
theorem chooseVariant?_eq_findSome? (resource : Resource H) (accept acceptLanguage : Option String) :
    chooseVariant? resource accept acceptLanguage =
      (grounds accept acceptLanguage).findSome? fun g =>
        (resource.filter fun v => !refuses (mediaRanges accept) v.contentType).find? g.fits := by
  have head (candidates : Resource H) : candidates.head? = candidates.find? fun _ => true := by
    cases candidates <;> rfl
  simp only [chooseVariant?, mediaRanges_eq, ← map_fst_ranked, ← map_fst_rankedLanguages,
    byLanguage?_eq_findSome?, byType?_eq_findSome?, head, Option.orElse_eq_orElse,
    Option.orElse_eq_or, grounds, List.findSome?_append, List.findSome?_singleton]
  rfl

/-- A ground speaks for a variant that is not refused. -/
def Ground.picks (accept : Option String) (g : Ground) (v : Variant H) : Bool :=
  !refuses (mediaRanges accept) v.contentType && g.fits v

/-- The place of the choice goes through the grounds too. -/
theorem chosenPlace?_eq_findSome? (resource : Resource H) (accept acceptLanguage : Option String) :
    chosenPlace? resource accept acceptLanguage =
      (grounds accept acceptLanguage).findSome? fun g => resource.findIdx? (g.picks accept) := by
  rw [chosenPlace?, chooseVariant?_eq_findSome?, List.map_findSome?]
  refine congrArg (fun f => (grounds accept acceptLanguage).findSome? f) (funext fun g => ?_)
  rw [List.findIdx?_eq_fst_find?_zipIdx]
  simp only [Function.comp_def, List.find?_filter, placed, List.find?_map, Option.map_map,
    Bool.decide_and, Bool.decide_eq_true, Ground.fits_withHandler]
  rfl

/-! ### The least ground -/

section Least

variable {α β : Type} {R : α → α → Prop} {l : List α} {f : α → Option β} {b : β}

theorem exists_least_of_findSome? (sorted : l.Pairwise R) (h : l.findSome? f = some b) :
    ∃ a ∈ l, f a = some b ∧ ∀ c ∈ l, (f c).isSome → R a c ∨ a = c := by
  obtain ⟨before, a, after, rfl, ha, nothing⟩ := List.findSome?_eq_some_iff.1 h
  refine ⟨a, List.mem_append_right _ List.mem_cons_self, ha, fun c hc something => ?_⟩
  rcases List.mem_append.1 hc with hc | hc
  · rw [nothing c hc] at something
    cases something
  · rcases List.mem_cons.1 hc with rfl | hc
    · exact .inr rfl
    · exact .inl (List.rel_of_pairwise_cons (List.pairwise_append.1 sorted).2.1 hc)

/-- A search through a list that is in order finds what the least element has. -/
theorem findSome?_eq_some_iff_least (asymm : ∀ {a c}, R a c → ¬R c a) (sorted : l.Pairwise R) :
    l.findSome? f = some b ↔
      ∃ a ∈ l, f a = some b ∧ ∀ c ∈ l, (f c).isSome → R a c ∨ a = c := by
  refine ⟨exists_least_of_findSome? sorted, fun ⟨a, ha, hb, least⟩ => ?_⟩
  have something : (l.findSome? f).isSome :=
    List.findSome?_isSome_iff.2 ⟨a, ha, Option.isSome_of_eq_some hb⟩
  obtain ⟨b', hb'⟩ := Option.isSome_iff_exists.1 something
  obtain ⟨a', ha', hf, least'⟩ := exists_least_of_findSome? sorted hb'
  -- Two least elements would each be before the other.
  have same : a = a' := by
    rcases least a' ha' (Option.isSome_of_eq_some hf) with before | same
    · rcases least' a ha (Option.isSome_of_eq_some hb) with after | same
      · exact absurd after (asymm before)
      · exact same.symm
    · exact same
  subst same
  rw [hb', ← hf, hb]

end Least

/-! ### The choice -/

theorem speaksFor_iff {g : Ground} {i : Nat} :
    SpeaksFor resource accept g i ↔ ∃ h : i < resource.length, g.picks accept resource[i] = true := by
  simp only [SpeaksFor, Ground.picks, List.getElem?_eq_some_iff, Bool.and_eq_true, Bool.not_eq_true',
    ← Bool.not_eq_true, refuses_iff]
  constructor
  · rintro ⟨v, ⟨h, rfl⟩, wanted, fits⟩
    exact ⟨h, wanted, fits⟩
  · rintro ⟨h, wanted, fits⟩
    exact ⟨_, ⟨h, rfl⟩, wanted, fits⟩

/-- The search finds the first place that the ground speaks for. -/
theorem findIdx?_picks_eq_some_iff {g : Ground} {i : Nat} :
    resource.findIdx? (g.picks accept) = some i ↔
      SpeaksFor resource accept g i ∧ ∀ j, SpeaksFor resource accept g j → i ≤ j := by
  rw [List.findIdx?_eq_some_iff_getElem]
  constructor
  · rintro ⟨h, here, nowhere⟩
    refine ⟨speaksFor_iff.2 ⟨h, here⟩, fun j there => Nat.le_of_not_lt fun before => ?_⟩
    obtain ⟨_, there⟩ := speaksFor_iff.1 there
    exact nowhere j before there
  · rintro ⟨here, least⟩
    obtain ⟨h, here⟩ := speaksFor_iff.1 here
    refine ⟨h, here, fun j before there => ?_⟩
    exact Nat.not_le_of_lt before (least j (speaksFor_iff.2 ⟨Nat.lt_trans before h, there⟩))

theorem isSome_findIdx?_picks {g : Ground} :
    (resource.findIdx? (g.picks accept)).isSome = true ↔ ∃ j, SpeaksFor resource accept g j := by
  simp only [speaksFor_iff, List.findIdx?_isSome, List.any_eq_true, List.mem_iff_getElem]
  constructor
  · rintro ⟨v, ⟨j, h, rfl⟩, there⟩
    exact ⟨j, h, there⟩
  · rintro ⟨j, h, there⟩
    exact ⟨_, ⟨j, h, rfl⟩, there⟩

/-- The place of the choice is the one that comes first. -/
theorem chosenPlace?_eq_some_iff {i : Nat} :
    chosenPlace? resource accept acceptLanguage = some i ↔
      ComesFirst resource accept acceptLanguage i := by
  rw [chosenPlace?_eq_findSome?,
    findSome?_eq_some_iff_least Ground.Before.asymm orderedFrom_grounds.pairwise]
  unfold ComesFirst
  simp only [mem_grounds, findIdx?_picks_eq_some_iff, isSome_findIdx?_picks]
  refine exists_congr fun g => and_congr_right fun given => ?_
  constructor
  · rintro ⟨⟨here, first⟩, least⟩
    refine ⟨here, fun h j given there => (least h given ⟨j, there⟩).imp_right ?_⟩
    rintro rfl
    exact ⟨rfl, first j there⟩
  · rintro ⟨here, least⟩
    refine ⟨⟨here, fun j there => ?_⟩, fun h given ⟨j, there⟩ => ?_⟩
    · rcases least g j given there with before | ⟨-, le⟩
      · exact absurd before before.asymm
      · exact le
    · exact (least h j given there).imp_right And.left

/-- Nothing is chosen when every variant is refused. -/
theorem chosenPlace?_eq_none_iff (resource : Resource H) (accept acceptLanguage : Option String) :
    chosenPlace? resource accept acceptLanguage = none ↔ ∀ v ∈ resource, Refused accept v := by
  rw [chosenPlace?_eq_findSome?, List.findSome?_eq_none_iff]
  simp only [mem_grounds, ← Option.not_isSome_iff_eq_none, isSome_findIdx?_picks]
  constructor
  · intro h v hv
    obtain ⟨j, there⟩ := List.mem_iff_getElem?.1 hv
    by_contra wanted
    exact h .atAll trivial ⟨j, v, there, wanted, rfl⟩
  · rintro h g - ⟨j, v, there, wanted, -⟩
    exact wanted (h v (List.mem_of_getElem? there))

/-- **The precedence of the choice.** Nothing is chosen exactly when the request refuses every
variant. Otherwise the variant that comes first is chosen among those that are not refused: languages
before types alone, exact matches before those of the primary tag, then by the weight of the media
range and by that of the language range, and then in the order of registration; and where no range
fits, the first default variant, or else the first of all. -/
theorem choice_comes_first (resource : Resource H) (accept acceptLanguage : Option String) :
    (chooseVariant? resource accept acceptLanguage = none ↔ ∀ v ∈ resource, Refused accept v) ∧
    (∀ v, chooseVariant? resource accept acceptLanguage = some v ↔
      ∃ i, ComesFirst resource accept acceptLanguage i ∧ resource[i]? = some v) ∧
    ∀ i, chosenPlace? resource accept acceptLanguage = some i ↔
      ComesFirst resource accept acceptLanguage i := by
  refine ⟨?_, fun v => ?_, fun i => chosenPlace?_eq_some_iff⟩
  · rw [← chosenPlace?_eq_none_iff resource accept acceptLanguage, ← chooseVariant?_placed,
      chosenPlace?, Option.map_eq_none_iff, Option.map_eq_none_iff]
  · simp only [chooseVariant?_eq_at_place, Option.bind_eq_some_iff, chosenPlace?_eq_some_iff]

end VariantCache.Negotiation
