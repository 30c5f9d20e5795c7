import VariantCache.Bytes

/-!
# Texts and numbers in bytes

A byte string that spells a text is the UTF-8 form of the text (`ofString_of_toString?`), and that
form does spell it (`toString?_ofString`); it is that of the characters one after the other
(`ofString_eq_flatMap`). Among byte strings of one length, the number that is spelt decides the bytes
(`toNat_inj`).
-/

namespace VariantCache.Bytes

/-! ### Texts -/

theorem loop_toArray (b : Bytes) (i : Nat) (r : List UInt8) :
    ByteArray.toList.loop ⟨b.toArray⟩ i r = r.reverse ++ b.drop i := by
  -- The loop counts up to the length.
  induction h : b.length - i generalizing i r with
  | zero =>
    have done : ¬ i < b.length := by omega
    rw [ByteArray.toList.loop, if_neg (by simpa [ByteArray.size] using done),
      List.drop_eq_nil_of_le (by omega), List.append_nil]
  | succ n ih =>
    have more : i < b.length := by omega
    rw [ByteArray.toList.loop, if_pos (by simpa [ByteArray.size] using more), ih _ _ (by omega),
      List.drop_eq_getElem_cons more]
    simp [ByteArray.get!, more]

theorem toList_toArray (b : Bytes) : (⟨b.toArray⟩ : ByteArray).toList = b := loop_toArray b 0 []

theorem ofString_of_toString? {b : Bytes} {s : String} (h : toString? b = some s) :
    ofString s = b := by
  unfold toString? String.fromUTF8? at h
  split at h
  · obtain rfl := Option.some.inj h
    exact toList_toArray b
  · cases h

theorem ofString_eq_flatMap (s : String) : ofString s = s.toList.flatMap String.utf8EncodeChar := by
  have encoded : s.toUTF8 = ⟨(s.toList.flatMap String.utf8EncodeChar).toArray⟩ := by
    rw [String.toUTF8_eq_toByteArray, ← String.utf8Encode_toList, List.utf8Encode]
    exact ByteArray.ext List.data_toByteArray
  rw [ofString, encoded, toList_toArray]

/-- A character of ASCII is one byte. -/
theorem utf8EncodeChar_of_ascii {c : Char} (low : c.toNat < 128) :
    String.utf8EncodeChar c = [UInt8.ofNat c.toNat] := by
  unfold String.utf8EncodeChar
  exact if_pos (show c.toNat ≤ 127 by omega)

theorem ofString_append (s t : String) : ofString (s ++ t) = ofString s ++ ofString t := by
  rw [ofString_eq_flatMap, String.toList_append, List.flatMap_append, ← ofString_eq_flatMap,
    ← ofString_eq_flatMap]

/-- The bytes of a text spell it. -/
theorem toString?_ofString (s : String) : toString? (ofString s) = some s := by
  have bytes : (⟨(ofString s).toArray⟩ : ByteArray) = s.toByteArray := by
    have list : ofString s = s.toByteArray.data.toList := toList_toArray s.toByteArray.data.toList
    rw [list, Array.toArray_toList]
  have valid : (⟨(ofString s).toArray⟩ : ByteArray).IsValidUTF8 := bytes ▸ s.isValidUTF8
  rw [toString?, String.fromUTF8?, dif_pos valid]
  exact congrArg some (String.toByteArray_inj.1 bytes)

/-- Texts with a separator between them, in bytes. -/
theorem ofString_intercalate (separator : String) (texts : List String) :
    ofString (separator.intercalate texts) = (ofString separator).intercalate (texts.map ofString) := by
  induction texts with
  | nil => simp [ofString_eq_flatMap]
  | cons text rest ih =>
    cases rest with
    | nil => simp
    | cons next rest =>
      rw [String.intercalate_cons_cons, ofString_append, ofString_append, ih]
      simp only [List.map_cons, List.intercalate_cons_cons]

/-! ### Numbers -/

/-- Byte strings of one length that spell the same number are the same. -/
theorem toNat_inj {a b : Bytes} (same : a.length = b.length) : toNat a = toNat b ↔ a = b := by
  refine ⟨fun h => ?_, congrArg toNat⟩
  induction a generalizing b with
  | nil => exact (List.length_eq_zero_iff.1 same.symm).symm
  | cons first a ih =>
    obtain ⟨other, b, rfl⟩ := List.exists_cons_of_length_eq_add_one same.symm
    have := first.toNat_lt
    have := other.toNat_lt
    simp only [toNat] at h
    have low : first = other := UInt8.toNat_inj.1 (by omega)
    rw [low, ih (Nat.succ.inj same) (by omega)]

end VariantCache.Bytes
