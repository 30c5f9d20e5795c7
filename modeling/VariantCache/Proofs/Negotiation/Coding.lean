import VariantCache.Proofs.Negotiation.Precedence
import VariantCache.Proofs.Preference.Order

/-!
# Which coding comes first

An element of a request's list of codings yields a coding that can be sent, or none (`Yields`): it
names one, or it is a star and yields the first one that no element names. The coding that is chosen
is the one that the first element yields, heavier elements before lighter ones and refusals left out.
Where no element yields one the body is sent as it is, unless an element refuses that by its name
or by a star (`coding_comes_first`).

The choice is made from the list alone (`chooseCoding?_eq_codingAmong?`), and elements that name a coding
which cannot be sent do not count in it (`codingAmong?_filter_counts`).
-/

namespace VariantCache.Negotiation

open Preference Text

variable {acceptEncoding : Option String} {header : String} {supported : List Coding}
  {list : List Preference} {p : Preference} {c : Coding}

/-! ### What elements yield -/

/-- The list of codings of a request, as a text. To say nothing is to give an empty list. -/
def codingText (acceptEncoding : Option String) : String := acceptEncoding.getD ""

/-- The element names a coding, by any of its tokens. A star names none. -/
def Names (p : Preference) (c : Coding) : Prop := p.name ≠ "*" ∧ Coding.ofToken p.name = c

instance : Decidable (Names p c) := inferInstanceAs (Decidable (_ ∧ _))

/-- An element of a list yields a coding that can be sent. -/
inductive Yields (supported : List Coding) (list : List Preference) (p : Preference) : Coding → Prop
  /-- It names no coding at all. -/
  | identity (names : Names p .identity) : Yields supported list p .identity
  /-- It names a supported coding. -/
  | named {c : Coding} (names : Names p c) (real : c.isReal = true) (member : c ∈ supported) :
    Yields supported list p c
  /-- It is a star, and the coding is the first supported one that no element of the list names. -/
  | star {before after : List Coding} {c : Coding} (isStar : p.name = "*")
    (here : supported = before ++ c :: after) (real : c.isReal = true)
    (unnamed : ∀ q ∈ list, ¬Names q c)
    (first : ∀ d ∈ before, d.isReal = true → ∃ q ∈ list, Names q d) :
    Yields supported list p c

/-- The coding is what the first element of a header yields that yields anything: the heaviest, and
among equally heavy ones the first in the header. Refusals do not count. -/
def FirstYields (header : String) (supported : List Coding) (c : Coding) : Prop :=
  ∃ wish ∈ wishes header, Yields supported (elements header.toList) wish.1 c ∧
    ∀ other ∈ wishes header, (∃ d, Yields supported (elements header.toList) other.1 d) →
      Precedes wish other ∨ wish = other

/-- No element of a header yields a coding, refusals left out. -/
def NothingYielded (header : String) (supported : List Coding) : Prop :=
  ∀ wish ∈ wishes header, ∀ c, ¬Yields supported (elements header.toList) wish.1 c

/-- The coding is known by name only, or it is none that the body can be sent in. -/
def Idle (supported : List Coding) (c : Coding) : Prop :=
  c = .unsupported ∨ c = .compress ∨ c.isReal = true ∧ c ≠ .identity ∧ c ∉ supported

instance : Decidable (Idle supported c) := inferInstanceAs (Decidable (_ ∨ _ ∨ _))

/-! ### The choice from a list -/

/-- The coding that is chosen from a list, which may be empty. -/
def codingAmong? (supported : List Coding) (list : List Preference) : Option Coding :=
  match (list.filter (! ·.isRefused)).findSome? (codingOf? supported (mentioned list)) with
  | some coding => some coding
  | none => if refusesIdentity list then none else some .identity

theorem codingAmong?_nil (supported : List Coding) : codingAmong? supported [] = some .identity := rfl

/-- A header that is missing or blank is an empty list like any other. -/
theorem chooseCoding?_eq_codingAmong? (acceptEncoding : Option String) (supported : List Coding) :
    chooseCoding? acceptEncoding supported =
      codingAmong? supported (ofHeader (codingText acceptEncoding)) := by
  cases acceptEncoding with
  | none =>
    have blank : trim "" = "" := by decide
    rw [codingText, Option.getD_none, ofHeader_of_blank blank, codingAmong?_nil]
    rfl
  | some header =>
    unfold chooseCoding?
    simp only
    split
    · next blank =>
      rw [codingText, Option.getD_some, ofHeader_of_blank (String.isEmpty_iff.1 blank), codingAmong?_nil]
    · rfl

theorem isRefused_iff : p.isRefused = true ↔ p.weight.value = 0 := Weight.isZero_iff

theorem isStar_iff : isStar p = true ↔ p.name = "*" := beq_iff_eq

theorem mem_mentioned : c ∈ mentioned list ↔ ∃ p ∈ list, Names p c := by
  simp only [mentioned, List.mem_map, List.mem_filter, Bool.not_eq_true', ← Bool.not_eq_true, isStar_iff,
    Names, and_assoc]

theorem mem_mentioned_ofHeader :
    c ∈ mentioned (ofHeader header) ↔ ∃ p ∈ elements header.toList, Names p c := by
  simp only [mem_mentioned, mem_ofHeader]

/-- What a star yields. -/
theorem yields_star_iff (star : p.name = "*") :
    Yields supported list p c ↔ ∃ before after, supported = before ++ c :: after ∧ c.isReal = true ∧
      (∀ q ∈ list, ¬Names q c) ∧ ∀ d ∈ before, d.isReal = true → ∃ q ∈ list, Names q d := by
  constructor
  · intro yields
    cases yields with
    | identity names => exact absurd star names.1
    | named names => exact absurd star names.1
    | star _ here real unnamed first => exact ⟨_, _, here, real, unnamed, first⟩
  · rintro ⟨before, after, here, real, unnamed, first⟩
    exact .star star here real unnamed first

/-- What an element yields that is no star. -/
theorem yields_name_iff (name : p.name ≠ "*") :
    Yields supported list p c ↔
      Coding.ofToken p.name = c ∧ (c = .identity ∨ c.isReal = true ∧ c ∈ supported) := by
  constructor
  · intro yields
    cases yields with
    | identity names => exact ⟨names.2, .inl rfl⟩
    | named names real member => exact ⟨names.2, .inr ⟨real, member⟩⟩
    | star star => exact absurd star name
  · rintro ⟨names, rfl | ⟨real, member⟩⟩
    · exact .identity ⟨name, names⟩
    · exact .named ⟨name, names⟩ real member

theorem codingOf?_eq_some_iff :
    codingOf? supported (mentioned (ofHeader header)) p = some c ↔
      Yields supported (elements header.toList) p c := by
  unfold codingOf?
  cases star : isStar p with
  | true =>
    rw [yields_star_iff (isStar_iff.1 star)]
    simp only [↓reduceIte, List.find?_eq_some_iff_append, Bool.and_eq_true, Bool.not_eq_true',
      Bool.and_eq_false_imp, Bool.not_eq_false', List.contains_eq_mem, decide_eq_true_eq,
      decide_eq_false_iff_not, mem_mentioned_ofHeader]
    constructor
    · rintro ⟨⟨real, unnamed⟩, before, after, here, first⟩
      exact ⟨before, after, here, real, fun q hq names => unnamed ⟨q, hq, names⟩, first⟩
    · rintro ⟨before, after, here, real, unnamed, first⟩
      exact ⟨⟨real, fun ⟨q, hq, names⟩ => unnamed q hq names⟩, before, after, here, first⟩
  | false =>
    rw [yields_name_iff (mt isStar_iff.2 (Bool.not_eq_true _ ▸ star))]
    simp only [Bool.false_eq_true, ↓reduceIte, Option.ite_none_right_eq_some, Option.some.injEq]
    constructor
    · rintro ⟨allowed, rfl⟩
      exact ⟨rfl, allowed⟩
    · rintro ⟨rfl, allowed⟩
      exact ⟨allowed, rfl⟩

/-- The search goes through the elements in their order. -/
theorem findSome?_codingOf?_eq_some_iff :
    ((ofHeader header).filter (! ·.isRefused)).findSome?
        (codingOf? supported (mentioned (ofHeader header))) = some c ↔
      FirstYields header supported c := by
  rw [← map_fst_ranked, List.findSome?_map,
    findSome?_eq_some_iff_least Precedes.asymm (pairwise_ranked header)]
  simp only [mem_ranked, Function.comp_apply, codingOf?_eq_some_iff, Option.isSome_iff_exists]
  rfl

theorem findSome?_codingOf?_eq_none_iff :
    ((ofHeader header).filter (! ·.isRefused)).findSome?
        (codingOf? supported (mentioned (ofHeader header))) = none ↔
      NothingYielded header supported := by
  rw [← map_fst_ranked, List.findSome?_map, List.findSome?_eq_none_iff]
  simp only [mem_ranked, Function.comp_apply, Option.eq_none_iff_forall_ne_some, Ne,
    codingOf?_eq_some_iff]
  rfl

theorem exists_mem_wishes_iff :
    (∃ i, (p, i) ∈ wishes header) ↔ p ∈ elements header.toList ∧ p.isRefused = false := by
  simp only [wishes, List.mem_filter, List.mem_zipIdx_iff_getElem?, Bool.not_eq_true',
    exists_and_right]
  rw [List.mem_iff_getElem?]

/-- What is chosen is yielded first, or is the body as it is, where nothing is yielded. -/
theorem codingAmong?_eq_some_iff :
    codingAmong? supported (ofHeader header) = some c ↔
      FirstYields header supported c ∨
        NothingYielded header supported ∧ refusesIdentity (ofHeader header) = false ∧ c = .identity := by
  rw [codingAmong?, ← findSome?_codingOf?_eq_some_iff, ← findSome?_codingOf?_eq_none_iff]
  cases ((ofHeader header).filter (! ·.isRefused)).findSome?
      (codingOf? supported (mentioned (ofHeader header))) with
  | some found => simp only [Option.some.injEq, reduceCtorEq, false_and, or_false]
  | none =>
    simp only [Option.ite_none_left_eq_some, Bool.not_eq_true, Option.some.injEq, reduceCtorEq,
      true_and, false_or]
    exact and_congr_right fun _ => eq_comm

theorem codingAmong?_eq_none_iff :
    codingAmong? supported (ofHeader header) = none ↔
      NothingYielded header supported ∧ refusesIdentity (ofHeader header) = true := by
  rw [codingAmong?, ← findSome?_codingOf?_eq_none_iff]
  cases ((ofHeader header).filter (! ·.isRefused)).findSome?
      (codingOf? supported (mentioned (ofHeader header))) with
  | some found => simp only [reduceCtorEq, false_and]
  | none =>
    simp only [ite_eq_left_iff, reduceCtorEq, imp_false, Bool.not_eq_true, Bool.not_eq_false, true_and]

/-! ### A body without coding -/

theorem names_identity (name : p.name = "identity") : Names p .identity := by
  rw [Names, name]
  decide

/-- There is one token for no coding, and names are in lower case. -/
theorem name_of_names_identity (hp : p ∈ elements header.toList) (names : Names p .identity) :
    p.name = "identity" := by
  obtain ⟨-, names⟩ := names
  obtain ⟨-, trimmed, lowered⟩ := name_folded hp
  rw [Coding.ofToken, trimmed, lowered] at names
  split at names
  · assumption
  all_goals cases names

/-- An element refuses a body without coding, by its name or by a star. -/
def RefusesPlain (header : String) : Prop :=
  ∃ p ∈ elements header.toList, p.weight.value = 0 ∧ (p.name = "identity" ∨ p.name = "*")

/-- Where nothing is yielded, no element allows a body without coding. -/
theorem refusesIdentity_iff (nothing : NothingYielded header supported) :
    refusesIdentity (ofHeader header) = true ↔ RefusesPlain header := by
  have notAllowed (p : Preference) (hp : p ∈ elements header.toList) (name : p.name = "identity") :
      p.isRefused = true := by
    by_contra wanted
    obtain ⟨i, wish⟩ := exists_mem_wishes_iff.2 ⟨hp, Bool.eq_false_of_not_eq_true wanted⟩
    exact nothing _ wish _ (.identity (names_identity name))
  simp only [refusesIdentity, RefusesPlain, ← isRefused_iff, Bool.and_eq_true, List.any_eq_true,
    mem_ofHeader, Bool.or_eq_true, beq_iff_eq, isStar_iff, Bool.not_eq_true', List.any_eq_false,
    not_and, Bool.not_eq_false]
  exact and_iff_left notAllowed

/-! ### Elements that do not count -/

theorem not_idle_iff : ¬Idle supported c ↔ c = .identity ∨ c.isReal = true ∧ c ∈ supported := by
  unfold Idle
  cases c <;> simp [Coding.isReal]

/-- The element is a star, or names a coding that a body can be sent in. -/
def counts (supported : List Coding) (p : Preference) : Bool :=
  isStar p || !decide (Idle supported (Coding.ofToken p.name))

theorem counts_eq_false_iff :
    counts supported p = false ↔ p.name ≠ "*" ∧ Idle supported (Coding.ofToken p.name) := by
  rw [counts, Bool.or_eq_false_iff, ← Bool.not_eq_true, isStar_iff, Bool.not_eq_false', decide_eq_true_eq]

theorem counts_of_names (names : Names p c)
    (allowed : c = .identity ∨ c.isReal = true ∧ c ∈ supported) : counts supported p = true := by
  rw [counts, names.2, decide_eq_false (not_idle_iff.2 allowed)]
  exact Bool.or_true _

/-- An element that does not count yields nothing, whatever the list mentions. -/
theorem codingOf?_eq_none {listed : List Coding} (h : counts supported p = false) :
    codingOf? supported listed p = none := by
  obtain ⟨name, idle⟩ := counts_eq_false_iff.1 h
  rw [codingOf?, if_neg (mt isStar_iff.1 name)]
  exact if_neg fun allowed => not_idle_iff.2 allowed idle

/-- Of the codings that a body can be sent in, the elements that count mention all that are mentioned. -/
theorem mem_mentioned_filter_counts (real : c.isReal = true) (member : c ∈ supported) :
    c ∈ mentioned (list.filter (counts supported)) ↔ c ∈ mentioned list := by
  simp only [mem_mentioned, List.mem_filter, and_assoc]
  refine exists_congr fun q => and_congr_right fun _ => and_iff_right_of_imp fun names => ?_
  exact counts_of_names names (.inr ⟨real, member⟩)

theorem codingOf?_filter_counts (p : Preference) :
    codingOf? supported (mentioned (list.filter (counts supported))) p =
      codingOf? supported (mentioned list) p := by
  unfold codingOf?
  split
  · refine List.find?_congr fun c member => ?_
    cases real : c.isReal with
    | false => rfl
    | true =>
      have same : c ∈ mentioned (list.filter (counts supported)) ↔ c ∈ mentioned list :=
        mem_mentioned_filter_counts real member
      rw [Bool.true_and, Bool.true_and, Bool.not_inj_iff, Bool.eq_iff_iff, List.contains_iff_mem,
        List.contains_iff_mem, same]
  · rfl

theorem refusesIdentity_filter_counts (supported : List Coding) (list : List Preference) :
    refusesIdentity (list.filter (counts supported)) = refusesIdentity list := by
  have ofIdentity (p : Preference) (name : p.name = "identity") : counts supported p = true :=
    counts_of_names (names_identity name) (.inl rfl)
  have ofStar (p : Preference) (star : isStar p = true) : counts supported p = true := by
    rw [counts, star, Bool.true_or]
  have any {f : Preference → Bool} (h : ∀ p, f p = true → counts supported p = true) :
      (list.filter (counts supported)).any f = list.any f := by
    rw [List.any_filter]
    refine congrArg (list.any ·) (funext fun p => Bool.eq_iff_iff.2 ?_)
    rw [Bool.and_eq_true]
    exact and_iff_right_of_imp (h p)
  unfold refusesIdentity
  rw [any, any]
  · intro p allowed
    rw [Bool.and_eq_true, beq_iff_eq] at allowed
    exact ofIdentity p allowed.1
  · intro p refused
    rw [Bool.and_eq_true, Bool.or_eq_true, beq_iff_eq] at refused
    exact refused.2.elim (ofIdentity p) (ofStar p)

theorem findSome?_filter {α β : Type} {f : α → Option β} {keep : α → Bool}
    (h : ∀ a, keep a = false → f a = none) (l : List α) :
    (l.filter keep).findSome? f = l.findSome? f := by
  rw [← List.head?_filterMap, ← List.head?_filterMap, List.filterMap_filter]
  refine congrArg List.head? (List.filterMap_congr fun a _ => ?_)
  split
  · rfl
  · next out => exact (h a (Bool.eq_false_of_not_eq_true out)).symm

/-- Elements that do not count may be left out of a list. -/
theorem codingAmong?_filter_counts (supported : List Coding) (list : List Preference) :
    codingAmong? supported (list.filter (counts supported)) = codingAmong? supported list := by
  have asks : codingOf? supported (mentioned (list.filter (counts supported))) =
      codingOf? supported (mentioned list) := funext codingOf?_filter_counts
  rw [codingAmong?, codingAmong?, asks, refusesIdentity_filter_counts, List.filter_comm,
    findSome?_filter fun p out => codingOf?_eq_none out]

theorem ofToken_lower (token : String) : Coding.ofToken (lower token) = Coding.ofToken token := by
  rw [Coding.ofToken, trim_lower, lower_lower, Coding.ofToken]

theorem name_eq_star_iff {element : List Char} (h : States element p) :
    p.name = "*" ↔ nameOf element = ['*'] := by
  rw [h.name, ← String.toList_inj, String.toList_ofList, lowered,
    show "*".toList = ['*'] from rfl, List.map_eq_singleton_iff]
  constructor
  · rintro ⟨c, name, star⟩
    rw [name, (toLower_eq_iff (by decide) c).1 star]
  · intro name
    exact ⟨'*', name, rfl⟩

/-- The elements that count are the same without one that does not. -/
theorem ofHeader_withoutElement_filter_counts {i : Nat} {element : List Char}
    (here : elementAt? header i = some element) (name : nameOf element ≠ ['*'])
    (idle : Idle supported (Coding.ofToken (String.ofList (nameOf element)))) :
    (ofHeader (withoutElement i header)).filter (counts supported) =
      (ofHeader header).filter (counts supported) := by
  have out : (parse? (trimmed element)).filter (counts supported) = none := by
    cases read : parse? (trimmed element) with
    | none => rfl
    | some p =>
      have states := parse?_eq_some_iff.1 read
      have token : Coding.ofToken p.name = Coding.ofToken (String.ofList (nameOf element)) := by
        rw [← ofToken_lower (String.ofList (nameOf element)), lower, String.toList_ofList, states.name]
      have notCounted : counts supported p = false := by
        rw [counts_eq_false_iff, token]
        exact ⟨mt (name_eq_star_iff states).1 name, idle⟩
      rw [Option.filter_some, notCounted]
      exact if_neg Bool.false_ne_true
  have sorted (elements : List Preference) : (elements.mergeSort comesFirst).filter (counts supported) =
      (elements.filter (counts supported)).mergeSort comesFirst := filter_mergeSort _ _
  rw [ofHeader, ofHeader, sorted, sorted, elements_withoutElement, elements, List.filter_filterMap,
    List.filter_filterMap, filterMap_eraseIdx here out]

/-! ### The choice -/

/-- A coding that is yielded can be sent. -/
theorem Yields.isReal (h : Yields supported list p c) :
    c.isReal = true ∧ (c = .identity ∨ c ∈ supported) := by
  cases h with
  | identity => exact ⟨rfl, .inl rfl⟩
  | named _ real member => exact ⟨real, .inr member⟩
  | star _ here real =>
    rw [here]
    exact ⟨real, .inr (List.mem_append_right _ List.mem_cons_self)⟩

/-- A coding that is yielded is named by the element, or by none in the list. -/
theorem Yields.names (h : Yields supported list p c) : Names p c ∨ ∀ q ∈ list, ¬Names q c := by
  cases h with
  | identity names => exact .inl names
  | named names => exact .inl names
  | star _ _ _ unnamed => exact .inr unnamed

theorem chooseCoding?_eq_some_iff :
    chooseCoding? acceptEncoding supported = some c ↔
      FirstYields (codingText acceptEncoding) supported c ∨
        NothingYielded (codingText acceptEncoding) supported ∧
          ¬RefusesPlain (codingText acceptEncoding) ∧ c = .identity := by
  rw [chooseCoding?_eq_codingAmong?, codingAmong?_eq_some_iff]
  refine or_congr_right (and_congr_right fun nothing => and_congr_left fun _ => ?_)
  rw [← Bool.not_eq_true, refusesIdentity_iff nothing]

theorem chooseCoding?_eq_none_iff :
    chooseCoding? acceptEncoding supported = none ↔
      NothingYielded (codingText acceptEncoding) supported ∧
        RefusesPlain (codingText acceptEncoding) := by
  rw [chooseCoding?_eq_codingAmong?, codingAmong?_eq_none_iff]
  exact and_congr_right refusesIdentity_iff

/-- **The choice of a coding.** What is chosen is real, and is no coding or a supported one. A
coding that is named, but with zero weights only, is not chosen. The first element that yields
anything decides; where none does, the body is sent as it is, unless that is refused. An element that is no
star and names a coding which is unknown, which is known by name only, or which is not supported may be
taken out. -/
theorem coding_comes_first (acceptEncoding : Option String) (supported : List Coding) :
    (∀ c, chooseCoding? acceptEncoding supported = some c →
      c.isReal = true ∧ (c = .identity ∨ c ∈ supported)) ∧
    (∀ c, (∃ p ∈ elements (codingText acceptEncoding).toList, Names p c) →
      (∀ p ∈ elements (codingText acceptEncoding).toList, Names p c → p.weight.value = 0) →
      chooseCoding? acceptEncoding supported ≠ some c) ∧
    (∀ c, chooseCoding? acceptEncoding supported = some c ↔
      FirstYields (codingText acceptEncoding) supported c ∨
        NothingYielded (codingText acceptEncoding) supported ∧
          ¬RefusesPlain (codingText acceptEncoding) ∧ c = .identity) ∧
    (chooseCoding? acceptEncoding supported = none ↔
      NothingYielded (codingText acceptEncoding) supported ∧
        RefusesPlain (codingText acceptEncoding)) ∧
    ∀ header i element, acceptEncoding = some header → elementAt? header i = some element →
      nameOf element ≠ ['*'] → Idle supported (Coding.ofToken (String.ofList (nameOf element))) →
      chooseCoding? (some (withoutElement i header)) supported =
        chooseCoding? acceptEncoding supported := by
  refine ⟨fun c chosen => ?_, fun c ⟨p, hp, names⟩ weightless chosen => ?_,
    fun c => chooseCoding?_eq_some_iff, chooseCoding?_eq_none_iff, ?_⟩
  · rcases chooseCoding?_eq_some_iff.1 chosen with ⟨wish, -, yields, -⟩ | ⟨-, -, rfl⟩
    · exact yields.isReal
    · exact ⟨rfl, .inl rfl⟩
  · rcases chooseCoding?_eq_some_iff.1 chosen with ⟨⟨q, i⟩, wish, yields, -⟩ | ⟨-, allowed, rfl⟩
    · rcases yields.names with named | unnamed
      · obtain ⟨hq, wanted⟩ := exists_mem_wishes_iff.1 ⟨i, wish⟩
        rw [isRefused_iff.2 (weightless q hq named)] at wanted
        cases wanted
      · exact unnamed p hp names
    · exact allowed ⟨p, hp, weightless p hp names, .inl (name_of_names_identity hp names)⟩
  · rintro header i element rfl here name idle
    rw [chooseCoding?_eq_codingAmong?, chooseCoding?_eq_codingAmong?, codingText, codingText,
      Option.getD_some, Option.getD_some, ← codingAmong?_filter_counts,
      ofHeader_withoutElement_filter_counts here name idle, codingAmong?_filter_counts]

/-- A coding is refused under both of its tokens, and another one is not supported. -/
theorem coding_comes_first_refusedTwice :
    chooseCoding? (some "gzip;q=0, X-GZIP;q=0.0, zstd, *;q=0.5") [.gzip, .brotli] ≠ some .gzip ∧
      chooseCoding? (some "gzip;q=0, X-GZIP;q=0.0, *;q=0.5") [.gzip, .brotli] =
        chooseCoding? (some "gzip;q=0, X-GZIP;q=0.0, zstd, *;q=0.5") [.gzip, .brotli] := by
  obtain ⟨-, unrefused, -, -, uncounted⟩ := coding_comes_first
    (some "gzip;q=0, X-GZIP;q=0.0, zstd, *;q=0.5") [.gzip, .brotli]
  have refused : ∀ p ∈ elements "gzip;q=0, X-GZIP;q=0.0, zstd, *;q=0.5".toList,
      Names p .gzip → p.isRefused = true := by decide +kernel
  have rest : withoutElement 2 "gzip;q=0, X-GZIP;q=0.0, zstd, *;q=0.5" =
      "gzip;q=0, X-GZIP;q=0.0, *;q=0.5" := by decide +kernel
  refine ⟨unrefused .gzip (by decide +kernel) fun p hp names => isRefused_iff.1 (refused p hp names), ?_⟩
  rw [← rest]
  exact uncounted _ 2 " zstd".toList rfl (by decide +kernel) (by decide +kernel) (by decide +kernel)

end VariantCache.Negotiation
