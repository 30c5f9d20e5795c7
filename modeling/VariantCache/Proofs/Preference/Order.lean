import VariantCache.Proofs.Preference.Element
import VariantCache.Proofs.Preference.Sorting
import VariantCache.Proofs.Text.Pieces

/-!
# The list that a header states

A header is read element by element, and the elements that are not malformed make up its list, each
with the weight that is nearest to the number it spells, the heaviest first and equally heavy ones in
the order of the header (`Listed`). So the list of two headers one after the other, with a comma
between them, is the stable merge of their lists, and a malformed element may be taken out of a header
(`weighted_list_exact`).
-/

namespace VariantCache.Preference

open Text

variable {header : String} {i : Nat} {element : List Char} {p q : Preference}

/-! ### Elements in a header -/

/-- The element of a header at a place. -/
def elementAt? (header : String) (i : Nat) : Option (List Char) := (splitAt ',' header.toList)[i]?

/-- The header without the element at a place, and without a comma beside it. -/
def withoutElement (i : Nat) (header : String) : String :=
  String.ofList (without ',' i header.toList)

/-- An element of a list, and the place in the header that it comes from. -/
abbrev Entry := Preference × Nat

/-- The one is heavier, or as heavy and before the other in the header. -/
def Entry.Precedes (a b : Entry) : Prop :=
  b.1.weight.value < a.1.weight.value ∨ a.1.weight.value = b.1.weight.value ∧ a.2 < b.2

/-- The entries are those of a header: what each element states that is not malformed, once, and in
order. -/
structure Listed (header : String) (entries : List Entry) : Prop where
  mem_iff : ∀ p i, (p, i) ∈ entries ↔ ∃ element, elementAt? header i = some element ∧ States element p
  exists_iff : ∀ i element, elementAt? header i = some element →
    ((∃ p, (p, i) ∈ entries) ↔ ¬Malformed element)
  pairwise : entries.Pairwise Entry.Precedes

/-! ### Names -/

theorem trimmed_nameOf (element : List Char) : trimmed (nameOf element) = nameOf element := by
  unfold nameOf partsOf
  cases splitAt ';' element with
  | nil => rfl
  | cons name parts => exact trimmed_trimmed name

theorem exists_states_of_mem_elements {cs : List Char} (h : p ∈ elements cs) :
    ∃ element, States element p := by
  obtain ⟨element, -, read⟩ := List.mem_filterMap.1 h
  exact ⟨element, parse?_eq_some_iff.1 read⟩

/-- A name is not empty, without blanks at its ends, and in lower case. -/
theorem name_folded {cs : List Char} (h : p ∈ elements cs) :
    p.name ≠ "" ∧ trim p.name = p.name ∧ lower p.name = p.name := by
  obtain ⟨element, states⟩ := exists_states_of_mem_elements h
  refine ⟨?_, ?_, ?_⟩
  · rw [states.name, Ne, String.ofList_eq_empty_iff, lowered, List.map_eq_nil_iff]
    exact states.named
  · rw [states.name, trim, String.toList_ofList, trimmed_lowered, trimmed_nameOf]
  · rw [states.name, lower, String.toList_ofList, lowered_lowered]

theorem mem_ofHeader : p ∈ ofHeader header ↔ p ∈ elements header.toList := by
  rw [ofHeader, List.mem_mergeSort]

/-! ### The entries of a header -/

/-- What the elements of a header state, each with its place. -/
def statements (header : String) : List Entry :=
  (splitAt ',' header.toList).zipIdx.filterMap fun (element, i) => (parse? (trimmed element)).map (·, i)

/-- The entries of a header, sorted. -/
def entries (header : String) : List Entry :=
  (statements header).mergeSort (descending fun entry => entry.1.weight.rank)

theorem map_fst_statements (header : String) :
    (statements header).map Prod.fst = elements header.toList := by
  conv_rhs => rw [elements, ← List.zipIdx_map_fst 0 (splitAt ',' header.toList), List.filterMap_map]
  rw [statements, List.map_filterMap]
  refine List.filterMap_congr fun entry _ => ?_
  rw [Option.map_map, Function.comp]
  exact Option.map_id'

theorem map_fst_entries (header : String) : (entries header).map Prod.fst = ofHeader header := by
  rw [ofHeader, ← map_fst_statements, entries]
  exact List.map_mergeSort fun a _ b _ => rfl

theorem mem_statements : (p, i) ∈ statements header ↔
    ∃ element, elementAt? header i = some element ∧ States element p := by
  simp only [statements, List.mem_filterMap, Prod.exists, List.mem_zipIdx_iff_getElem?,
    Option.map_eq_some_iff, Prod.mk.injEq, parse?_eq_some_iff, elementAt?]
  constructor
  · rintro ⟨element, i, here, p, states, rfl, rfl⟩
    exact ⟨element, here, states⟩
  · rintro ⟨element, here, states⟩
    exact ⟨element, i, here, p, states, rfl, rfl⟩

theorem pairwise_statements (header : String) :
    (statements header).Pairwise fun a b => a.2 < b.2 := by
  have places : (splitAt ',' header.toList).zipIdx.Pairwise fun a b => a.2 < b.2 := by
    rw [← List.pairwise_map, List.zipIdx_map_snd]
    exact List.pairwise_lt_range'
  refine List.pairwise_filterMap.2 (places.imp fun lt a ha b hb => ?_)
  obtain ⟨_, -, rfl⟩ := Option.map_eq_some_iff.1 ha
  obtain ⟨_, -, rfl⟩ := Option.map_eq_some_iff.1 hb
  exact lt

theorem listed_entries (header : String) : Listed header (entries header) where
  mem_iff p i := by rw [entries, List.mem_mergeSort, mem_statements]
  exists_iff i element here := by
    simp only [entries, List.mem_mergeSort, mem_statements, here, Option.some.injEq, exists_eq_left']
    rw [← parse?_eq_none_iff, ← ne_eq, Option.ne_none_iff_exists']
    exact exists_congr fun p => parse?_eq_some_iff.symm
  pairwise := by
    refine (pairwise_mergeSort (pairwise_statements header)).imp fun h => ?_
    simpa only [Entry.Precedes, Weight.value_lt_value_iff, Weight.value_inj] using h

/-! ### Headers put together and taken apart -/

theorem comesFirst_iff : p.comesFirst q = true ↔ q.weight.value ≤ p.weight.value := by
  rw [Weight.value_le_value_iff, comesFirst, decide_eq_true_eq]

/-- The elements of two headers with a comma in between are those of the one and of the other. -/
theorem elements_append (a b : List Char) : elements (a ++ ',' :: b) = elements a ++ elements b := by
  simp only [elements, splitAt_append, List.filterMap_append]

/-- Blanks at the ends of a header do not count. -/
theorem ignoresEnds_elements : IgnoresEnds elements := by
  have pieces : IgnoresEnds fun header => (splitAt ',' header).map fun element => parse? (trimmed element) :=
    IgnoresEnds.pieces ⟨fun blank cs => congrArg parse? (trimmed_cons blank cs),
      fun blank cs => congrArg parse? (trimmed_concat blank cs)⟩ isBlank_comma
  have read (header : List Char) : elements header =
      ((splitAt ',' header).map fun element => parse? (trimmed element)).reduceOption := by
    rw [List.reduceOption, List.filterMap_map]
    rfl
  exact ⟨fun blank cs => by rw [read, read, pieces.cons blank],
    fun blank cs => by rw [read, read, pieces.concat blank]⟩

/-- A blank header has no elements. -/
theorem ofHeader_of_blank (blank : trim header = "") : ofHeader header = [] := by
  have nothing : elements header.toList = [] := by
    rw [← ignoresEnds_elements.trimmed, String.ofList_eq_empty_iff.1 blank]
    rfl
  rw [ofHeader, nothing, List.mergeSort_nil]

theorem ofHeader_append (a b : String) :
    ofHeader (a ++ "," ++ b) = (ofHeader a).merge (ofHeader b) comesFirst := by
  have text : (a ++ "," ++ b).toList = a.toList ++ ',' :: b.toList := by
    rw [String.toList_append, String.toList_append, List.append_assoc]
    rfl
  rw [ofHeader, text, elements_append]
  exact mergeSort_append (elements a.toList) (elements b.toList)

/-- The elements without the one at a place. -/
theorem elements_withoutElement (i : Nat) (header : String) :
    elements (withoutElement i header).toList =
      ((splitAt ',' header.toList).eraseIdx i).filterMap fun element => parse? (trimmed element) := by
  rw [withoutElement, String.toList_ofList, elements, filterMap_splitAt_without rfl]

/-- A malformed element may be taken out of a header. -/
theorem ofHeader_withoutElement (here : elementAt? header i = some element)
    (malformed : Malformed element) : ofHeader (withoutElement i header) = ofHeader header := by
  rw [ofHeader, elements_withoutElement, filterMap_eraseIdx here (parse?_eq_none_iff.2 malformed)]
  rfl

/-- **The list that a header states.** It has the well-formed elements of the header and
nothing else, each once, under their names in lower case and with weights from zero to one, each
nearest to the number that its element spells; the heaviest come first, and equally heavy ones are
in the order of the header. So the list of two headers with a comma in between is the stable merge of
their lists, and without a malformed element the list is the same. -/
theorem weighted_list_exact (header : String) :
    (∃ entries, Listed header entries ∧ ofHeader header = entries.map Prod.fst) ∧
    (∀ p ∈ ofHeader header, p.name ≠ "" ∧ trim p.name = p.name ∧ lower p.name = p.name ∧
      0 ≤ p.weight.value ∧ p.weight.value ≤ 1) ∧
    (∀ p q : Preference, p.comesFirst q = true ↔ q.weight.value ≤ p.weight.value) ∧
    (∀ other, ofHeader (header ++ "," ++ other) =
        (ofHeader header).merge (ofHeader other) comesFirst ∧
      ofHeader (header ++ " , " ++ other) = (ofHeader header).merge (ofHeader other) comesFirst) ∧
    ∀ i element, elementAt? header i = some element → Malformed element →
      ofHeader (withoutElement i header) = ofHeader header := by
  refine ⟨⟨entries header, listed_entries header, (map_fst_entries header).symm⟩, fun p hp => ?_,
    fun p q => comesFirst_iff, fun other => ⟨ofHeader_append header other, ?_⟩,
    fun i element here malformed => ofHeader_withoutElement here malformed⟩
  · obtain ⟨named, trimmed, lowered⟩ := name_folded (mem_ofHeader.1 hp)
    exact ⟨named, trimmed, lowered, p.weight.value_nonneg, p.weight.value_le_one⟩
  · have text : header ++ " , " ++ other = (header ++ " ") ++ "," ++ (" " ++ other) := by
      simp only [String.append_assoc]
      rfl
    have before : ofHeader (header ++ " ") = ofHeader header := by
      rw [ofHeader, String.toList_append, ofHeader]
      exact congrArg (List.mergeSort · comesFirst)
        (ignoresEnds_elements.concat (by decide : isBlank ' ') header.toList)
    have after : ofHeader (" " ++ other) = ofHeader other := by
      rw [ofHeader, String.toList_append, ofHeader]
      exact congrArg (List.mergeSort · comesFirst)
        (ignoresEnds_elements.cons (by decide : isBlank ' ') other.toList)
    rw [text, ofHeader_append, before, after]

/-- An element that is too heavy may be taken out, and the others are sorted by what they state. -/
theorem weighted_list_exact_tooHeavy :
    Malformed " b;q=2".toList ∧
      ofHeader "a;q=0.5, C ; Q=\"0.9\", d,e;q=.5" = ofHeader "a;q=0.5, b;q=2, C ; Q=\"0.9\", d,e;q=.5" ∧
      (ofHeader "a;q=0.5, b;q=2, C ; Q=\"0.9\", d,e;q=.5").map (fun p => (p.name, p.weight.value)) =
        [("d", 1), ("c", 7549747 / 8388608), ("a", 1 / 2), ("e", 1 / 2)] := by
  obtain ⟨header, same⟩ : ∃ header, header = "a;q=0.5, b;q=2, C ; Q=\"0.9\", d,e;q=.5" := ⟨_, rfl⟩
  have malformed : Malformed " b;q=2".toList := parse?_eq_none_iff.1 (by decide +kernel)
  have rest : withoutElement 1 header = "a;q=0.5, C ; Q=\"0.9\", d,e;q=.5" := by
    subst same
    decide +kernel
  have read : (elements header.toList).map (fun p => (p.name, p.weight.rank)) =
      [("a", 0x3f000000), ("c", 0x3f666666), ("d", 0x3f800000), ("e", 0x3f000000)] := by
    subst same
    decide +kernel
  have ranked : (ofHeader header).map (fun p => (p.name, p.weight.rank)) =
      [("d", 0x3f800000), ("c", 0x3f666666), ("a", 0x3f000000), ("e", 0x3f000000)] := by
    have sorted : (ofHeader header).map (fun p => (p.name, p.weight.rank)) =
        ((elements header.toList).map fun p => (p.name, p.weight.rank)).mergeSort
          fun a b => decide (b.2 ≤ a.2) := List.map_mergeSort fun p _ q _ => rfl
    rw [sorted, read]
    cbv
  rw [← same]
  refine ⟨malformed, ?_, ?_⟩
  · rw [← rest]
    exact (weighted_list_exact header).2.2.2.2 1 _ (by subst same; decide +kernel) malformed
  · have valued := congrArg (List.map (Prod.map id BinaryFormat.binary32.value)) ranked
    rw [List.map_map] at valued
    refine valued.trans ?_
    norm_num [BinaryFormat.value, BinaryFormat.unitsOf, BinaryFormat.binary32]

end VariantCache.Preference
