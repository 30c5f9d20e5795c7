import VariantCache.Http.Header
import VariantCache.Proofs.Bytes
import VariantCache.Proofs.Text.Folding

/-!
# Fields and their values

A text may be sent as the value of a field when each of its characters may
(`isSendable_iff`): so may its parts put together, the text that is left when it is folded
(`IsSendable.fold`), and a number (`isSendable_toString`). A field that is replaced by such a
text has it as its one value, and all other fields have the values that they had
(`values_replaceText`).
-/

namespace VariantCache

namespace Http

/-! ### Texts that may be sent -/

/-- The text may be the value of a field. -/
def IsSendable (s : String) : Prop := isFieldValue (Bytes.ofString s) = true

instance (s : String) : Decidable (IsSendable s) :=
  inferInstanceAs (Decidable (isFieldValue (Bytes.ofString s) = true))

/-- The character may stand in the value of a field. -/
def IsFieldChar (c : Char) : Prop := isFieldValue (String.utf8EncodeChar c) = true

variable {s t : String} {c : Char}

theorem isSendable_iff : IsSendable s ↔ ∀ c ∈ s.toList, IsFieldChar c := by
  unfold IsSendable IsFieldChar isFieldValue
  rw [Bytes.ofString_eq_flatMap, List.all_flatMap, List.all_eq_true]

theorem IsSendable.append (hs : IsSendable s) (ht : IsSendable t) : IsSendable (s ++ t) := by
  rw [isSendable_iff] at *
  intro c hc
  rw [String.toList_append, List.mem_append] at hc
  exact hc.elim (hs c) (ht c)

/-- The visible characters of ASCII may stand in a value, and so may the blank. -/
theorem isFieldChar_of_visible (low : 32 ≤ c.toNat) (high : c.toNat < 127) : IsFieldChar c := by
  have single : String.utf8EncodeChar c = [UInt8.ofNat c.toNat] :=
    Bytes.utf8EncodeChar_of_ascii (by omega)
  have value : (UInt8.ofNat c.toNat).toNat = c.toNat := by
    rw [UInt8.toNat_ofNat']
    omega
  have visible : 32 ≤ UInt8.ofNat c.toNat := by
    rw [UInt8.le_iff_toNat_le, value]
    exact low
  have notDelete : UInt8.ofNat c.toNat ≠ 127 := by
    intro delete
    have code := congrArg UInt8.toNat delete
    rw [value, show (127 : UInt8).toNat = 127 from rfl] at code
    omega
  rw [IsFieldChar, single]
  simp [isFieldValue, visible, notDelete]

/-- The lower case of a character may stand in a value if the character may. -/
theorem IsFieldChar.toLower (h : IsFieldChar c) : IsFieldChar c.toLower := by
  rcases Text.toLower_cases c with ⟨same, -⟩ | ⟨shifted, bounds⟩
  · rw [same]
    exact h
  · exact isFieldChar_of_visible (by omega) (by omega)

/-- What is left of a text when it is folded may be sent if the text may. -/
theorem IsSendable.fold (h : IsSendable s) : IsSendable (CacheKey.fold s) := by
  rw [isSendable_iff] at *
  intro c hc
  simp only [CacheKey.fold, Text.lower, Text.lowered, Text.trim, String.toList_ofList,
    List.mem_map] at hc
  obtain ⟨c, hc, rfl⟩ := hc
  refine (h c ?_).toLower
  rw [Text.trimmed_eq] at hc
  exact (List.dropWhile_sublist _).subset ((List.rdropWhile_prefix _ _).subset hc)

/-- The digits of a number may be sent. -/
theorem isSendable_toString (n : Nat) : IsSendable (toString n) := by
  rw [isSendable_iff, Nat.toString_eq_ofList_toDigits, String.toList_ofList]
  intro c hc
  have digit := Nat.isDigit_of_mem_toDigits (by decide) (by decide) hc
  have bounds : 48 ≤ c.toNat ∧ c.toNat ≤ 57 := by
    simpa [Char.isDigit, UInt32.le_iff_toNat_le] using digit
  exact isFieldChar_of_visible (by omega) (by omega)

/-! ### The values of a field -/

namespace Headers

/-- All values of a field, in order. -/
def values (headers : Headers) (name : String) : List Bytes :=
  (headers.filter (·.1 == name)).map (·.2)

variable {headers : Headers} {name other : String}

/-- A field that is left out has no values, and the others have those that they had. -/
theorem values_filter_ne (headers : Headers) (name other : String) :
    values (headers.filter (·.1 != name)) other =
      if other = name then [] else headers.values other := by
  rw [values, List.filter_filter]
  by_cases same : other = name
  · subst same
    simp
  · have kept : (fun field : String × Bytes => field.1 == other && field.1 != name) =
        fun field => field.1 == other := by
      funext field
      by_cases h : field.1 = other <;> simp [h, same]
    rw [if_neg same, kept, values]

theorem values_replace (value : Bytes) :
    (headers.replace name value).values other =
      if other = name then [value] else headers.values other := by
  rw [replace, append, values, List.filter_append, List.map_append, ← values, values_filter_ne]
  by_cases same : other = name
  · subst same
    simp
  · simp [same, Ne.symm same]

/-- **A field that is replaced has its new value alone**, the others have what they had. -/
theorem values_replaceText {text : String} (h : IsSendable text) :
    (headers.replaceText name text).values other =
      if other = name then [Bytes.ofString text] else headers.values other := by
  rw [replaceText]
  simp only [show isFieldValue (Bytes.ofString text) = true from h, if_true]
  exact values_replace _

theorem values_replaceText_of_ne (text : String) (ne : other ≠ name) :
    (headers.replaceText name text).values other = headers.values other := by
  by_cases h : IsSendable text
  · rw [values_replaceText h, if_neg ne]
  · rw [replaceText]
    exact congrArg (values · other) (if_neg h)

end Headers
end Http
end VariantCache
