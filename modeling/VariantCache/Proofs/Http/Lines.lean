import VariantCache.Http.Request
import VariantCache.Proofs.Http.Field

/-!
# Fields of several lines

A field may stand in several lines of a header, and a list over several lines means what the lines
mean with commas between them. All lines of a field can be brought into one in the place of the
first, which leaves the other fields as they are (`Headers.values_oneLine`); the lines may be joined
there (`Headers.joined`), or those after the first left out (`Headers.firstLines`). A request takes
what it prefers from the first line of each field (`Request.ofHttp?_eq_map_head?`). So it takes all
lines where they are joined (`Request.ofHttp?_joined`), and where the later ones are left out it is the
same as with them (`Request.ofHttp?_firstLines`).
-/

namespace VariantCache.Http

/-! ### Texts in ASCII -/

/-- Bytes of ASCII spell a text. -/
theorem exists_text {value : Bytes} (ascii : isAsciiValue value = true) :
    ∃ text, Bytes.ofString text = value := by
  refine ⟨String.ofList (value.map fun b => Char.ofNat b.toNat), ?_⟩
  rw [Bytes.ofString_eq_flatMap, String.toList_ofList, List.flatMap_map]
  have single (b : UInt8) (hb : b ∈ value) : String.utf8EncodeChar (Char.ofNat b.toNat) = [b] := by
    have visible := List.all_eq_true.1 ascii b hb
    have low : b.toNat < 128 := by
      simp only [Bool.or_eq_true, Bool.and_eq_true, decide_eq_true_eq, beq_iff_eq, UInt8.lt_iff_toNat_lt]
        at visible
      rcases visible with ⟨-, lt⟩ | rfl
      · exact Nat.lt_of_lt_of_le lt (by decide)
      · decide
    have code : (Char.ofNat b.toNat).toNat = b.toNat := by
      rw [Char.toNat_ofNat, if_pos (.inl (by omega))]
    rw [Bytes.utf8EncodeChar_of_ascii (by omega), code, UInt8.ofNat_toNat]
  calc value.flatMap (fun b => String.utf8EncodeChar (Char.ofNat b.toNat))
      = value.flatMap (fun b => [b]) := List.flatMap_congr single
    _ = value := by simp

theorem valueText?_ofString {text : String} (ascii : isAsciiValue (Bytes.ofString text) = true) :
    valueText? (Bytes.ofString text) = some text := by
  rw [valueText?, if_pos ascii, Bytes.toString?_ofString]

theorem isAsciiValue_intercalate {separator : Bytes} (ascii : isAsciiValue separator = true)
    {values : List Bytes} (all : ∀ value ∈ values, isAsciiValue value = true) :
    isAsciiValue (separator.intercalate values) = true := by
  induction values with
  | nil => rfl
  | cons value rest ih =>
    have first := all value List.mem_cons_self
    cases rest with
    | nil => simpa using first
    | cons next rest =>
      have others := ih fun v hv => all v (List.mem_cons_of_mem value hv)
      rw [List.intercalate_cons_cons]
      simp only [isAsciiValue, List.all_append, Bool.and_eq_true] at first ascii others ⊢
      exact ⟨⟨first, ascii⟩, others⟩

/-! ### Lines -/

namespace Headers

variable {headers : Headers} {name other : String} {make : Bytes → List Bytes → Bytes}

/-- The fields by which a client says what it prefers. -/
def preferenceFields : List String := ["accept", "accept-language", "accept-encoding"]

/-- All values of a field in one, which is made of the first and the later ones. -/
def inOne (make : Bytes → List Bytes → Bytes) : List Bytes → List Bytes
  | [] => []
  | first :: later => [make first later]

/-- All lines of a field in one, in the place of the first. -/
def oneLine (make : Bytes → List Bytes → Bytes) (name : String) : Headers → Headers
  | [] => []
  | field :: rest =>
    if field.1 = name then
      (name, make field.2 (values rest name)) :: rest.filter (·.1 != name)
    else field :: oneLine make name rest

/-- A header with one line for each of the fields that say what a client prefers. -/
def inOneLine (make : Bytes → List Bytes → Bytes) (headers : Headers) : Headers :=
  preferenceFields.foldr (oneLine make) headers

/-- The lines of each preference field joined into one, with a comma and a blank between them. -/
def joined (headers : Headers) : Headers :=
  headers.inOneLine fun first later => (Bytes.ofString ", ").intercalate (first :: later)

/-- The header without the later lines of each preference field. -/
def firstLines (headers : Headers) : Headers := headers.inOneLine fun first _ => first

/-- The preference fields of several lines have them in ASCII. -/
def RepeatsAscii (headers : Headers) : Prop :=
  ∀ name ∈ preferenceFields, 1 < (headers.values name).length →
    ∀ value ∈ headers.values name, isAsciiValue value = true

instance (headers : Headers) : Decidable headers.RepeatsAscii :=
  inferInstanceAs (Decidable (∀ name ∈ preferenceFields, _ → ∀ value ∈ headers.values name, _))

/-- The lines of a field as texts, as far as they are in ASCII. -/
def lines (headers : Headers) (name : String) : List String :=
  (headers.values name).filterMap valueText?

/-- Some lines in one, if there are any. -/
def joinedText : List String → Option String
  | [] => none
  | first :: later => some (", ".intercalate (first :: later))

@[simp] theorem values_nil (name : String) : values [] name = [] := rfl

theorem values_cons (field : String × Bytes) (rest : Headers) (name : String) :
    values (field :: rest) name =
      if field.1 = name then field.2 :: values rest name else values rest name := by
  simp only [values, List.filter_cons, beq_iff_eq]
  split <;> rfl

theorem first?_eq_head?_values : headers.first? name = (headers.values name).head? := by
  rw [first?, values, List.head?_map, List.head?_filter]

/-- A field that is brought into one line has one value, and the others have those that they had. -/
theorem values_oneLine (make : Bytes → List Bytes → Bytes) (headers : Headers) (name other : String) :
    (headers.oneLine make name).values other =
      if other = name then inOne make (headers.values name) else headers.values other := by
  induction headers with
  | nil => simp [oneLine, inOne]
  | cons field rest ih =>
    by_cases here : field.1 = name
    · rw [oneLine, if_pos here, values_cons, values_cons, values_cons, values_filter_ne, if_pos here]
      by_cases same : other = name
      · simp only [same, ↓reduceIte, inOne]
      · have apart : name ≠ other := Ne.symm same
        simp only [same, here, apart, ↓reduceIte]
    · rw [oneLine, if_neg here, values_cons, values_cons, values_cons, ih, if_neg here]
      by_cases same : other = name
      · simp only [same, here, ↓reduceIte]
      · simp only [same, ↓reduceIte]

/-- Several fields may be brought into one line each, in any order. -/
theorem values_foldr_oneLine {names : List String} (nodup : names.Nodup) (headers : Headers) :
    values (names.foldr (oneLine make) headers) other =
      if other ∈ names then inOne make (headers.values other) else headers.values other := by
  induction names with
  | nil => rfl
  | cons name names ih =>
    obtain ⟨new, apart⟩ := List.nodup_cons.1 nodup
    rw [List.foldr_cons, values_oneLine]
    by_cases same : other = name
    · subst same
      rw [if_pos rfl, ih apart, if_neg new, if_pos List.mem_cons_self]
    · rw [if_neg same, ih apart]
      simp only [List.mem_cons, same, false_or]

theorem values_inOneLine (h : name ∈ preferenceFields) :
    (headers.inOneLine make).values name = inOne make (headers.values name) := by
  rw [inOneLine, values_foldr_oneLine (by decide), if_pos h]

/-! ### Texts of lines -/

/-- The values of a field in ASCII are spelt by its lines. -/
theorem values_eq_map_lines (ascii : ∀ value ∈ headers.values name, isAsciiValue value = true) :
    headers.values name = (headers.lines name).map Bytes.ofString := by
  have each : ∀ value ∈ headers.values name, (valueText? value).map Bytes.ofString = some value := by
    intro value hv
    have visible := ascii value hv
    obtain ⟨text, rfl⟩ := exists_text visible
    rw [valueText?_ofString visible, Option.map_some]
  rw [lines, List.map_filterMap, List.filterMap_congr each, List.filterMap_some]

/-- A value in ASCII is a line, and any other is none. -/
theorem lines_of_singleton {value : Bytes} (single : headers.values name = [value]) :
    headers.lines name = (valueText? value).toList := by
  rw [lines, single, List.filterMap_cons]
  cases valueText? value <;> rfl

/-- A field has no values or one, or several in ASCII. -/
theorem RepeatsAscii.values_cases (ascii : headers.RepeatsAscii) (h : name ∈ preferenceFields) :
    headers.values name = [] ∨ (∃ value, headers.values name = [value]) ∨
      ∃ first later, headers.lines name = first :: later ∧
        headers.values name = (first :: later).map Bytes.ofString ∧
        ∀ value ∈ headers.values name, isAsciiValue value = true := by
  have spelt := ascii name h
  rcases values : headers.values name with _ | ⟨value, _ | ⟨next, rest⟩⟩
  · exact .inl rfl
  · exact .inr (.inl ⟨value, rfl⟩)
  · have visible := spelt (by rw [values, List.length_cons, List.length_cons]; omega)
    have lines := values_eq_map_lines visible
    cases texts : headers.lines name with
    | nil =>
      rw [values, texts] at lines
      cases lines
    | cons first later =>
      rw [texts] at lines
      exact .inr (.inr ⟨first, later, rfl, values ▸ lines, values ▸ visible⟩)

end Headers

namespace Request

open Headers

variable {headers : Headers} {name : String} {text text' : String → Option String} {r : Request}

/-- The text of a field is its first line. -/
theorem textOf?_eq_head?_lines (ascii : headers.RepeatsAscii) (h : name ∈ preferenceFields) :
    textOf? headers name = (headers.lines name).head? := by
  rw [textOf?, first?_eq_head?_values]
  rcases ascii.values_cases h with none | ⟨value, single⟩ | ⟨first, later, lines, values, visible⟩
  · rw [lines, none]
    rfl
  · rw [lines_of_singleton single, single, List.head?_cons, Option.bind_some, Option.head?_toList]
  · rw [values] at visible
    rw [values, lines, List.map_cons, List.head?_cons, Option.bind_some, List.head?_cons]
    exact valueText?_ofString (visible _ List.mem_cons_self)

/-- Where the later lines are left out, a field has the text that it had. -/
theorem textOf?_firstLines (headers : Headers) (h : name ∈ preferenceFields) :
    textOf? headers.firstLines name = textOf? headers name := by
  rw [textOf?, textOf?, first?_eq_head?_values, first?_eq_head?_values, firstLines, values_inOneLine h]
  cases headers.values name <;> rfl

/-- Where the lines are joined, a field has the texts of all of them, if it has any. -/
theorem textOf?_joined (ascii : headers.RepeatsAscii) (h : name ∈ preferenceFields) :
    textOf? headers.joined name = joinedText (headers.lines name) := by
  rw [textOf?, first?_eq_head?_values, joined, values_inOneLine h]
  rcases ascii.values_cases h with none | ⟨value, single⟩ | ⟨first, later, lines, values, visible⟩
  · rw [lines, none]
    rfl
  · rw [lines_of_singleton single, single, inOne, List.intercalate_singleton, List.head?_cons,
      Option.bind_some]
    cases valueText? value with
    | none => rfl
    | some text => rw [Option.toList_some, joinedText, String.intercalate_singleton]
  · rw [values] at visible
    have comma : isAsciiValue (Bytes.ofString ", ") = true := by decide +kernel
    have whole := isAsciiValue_intercalate comma visible
    rw [← Bytes.ofString_intercalate] at whole
    rw [values, lines, List.map_cons, inOne, List.head?_cons, Option.bind_some, ← List.map_cons,
      ← Bytes.ofString_intercalate, valueText?_ofString whole, joinedText]

/-! ### Requests -/

/-- The request with these texts for the fields that say what a client prefers. -/
def preferring (text : String → Option String) (r : Request) : Request :=
  { r with
    accept := text "accept"
    acceptLanguage := text "accept-language"
    acceptEncoding := text "accept-encoding" }

theorem preferring_congr (h : ∀ name ∈ preferenceFields, text name = text' name) :
    r.preferring text = r.preferring text' := by
  rw [preferring, h _ (by decide), h _ (by decide), h _ (by decide), preferring]

/-- Of a header the texts of three fields count. -/
theorem ofHttp?_eq_map (target : Target) (headers : Headers) :
    ofHttp? target headers = (ofHttp? target []).map (preferring (textOf? headers)) := by
  unfold ofHttp?
  cases Bytes.toString? target.path with
  | none => rfl
  | some path =>
    cases target.query with
    | none => rfl
    | some query =>
      by_cases empty : query.isEmpty
      · simp [empty, preferring]
      · cases spelt : Bytes.toString? query <;> simp [empty, spelt, preferring]

/-- The first line of each field is taken. -/
theorem ofHttp?_eq_map_head? (ascii : headers.RepeatsAscii) (target : Target) :
    ofHttp? target headers =
      (ofHttp? target []).map (preferring fun name => (headers.lines name).head?) := by
  rw [ofHttp?_eq_map]
  exact Option.map_congr fun r _ => preferring_congr fun name => textOf?_eq_head?_lines ascii

/-- Where the lines are joined, all of them are taken. -/
theorem ofHttp?_joined (ascii : headers.RepeatsAscii) (target : Target) :
    ofHttp? target headers.joined =
      (ofHttp? target []).map (preferring fun name => joinedText (headers.lines name)) := by
  rw [ofHttp?_eq_map]
  exact Option.map_congr fun r _ => preferring_congr fun name => textOf?_joined ascii

/-- **Later lines are not taken.** Without them the request is the same. -/
theorem ofHttp?_firstLines (target : Target) (headers : Headers) :
    ofHttp? target headers.firstLines = ofHttp? target headers := by
  rw [ofHttp?_eq_map, ofHttp?_eq_map target headers]
  exact Option.map_congr fun r _ => preferring_congr fun name => textOf?_firstLines headers

end Request

end VariantCache.Http
