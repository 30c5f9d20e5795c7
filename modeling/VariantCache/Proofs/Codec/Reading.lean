import Mathlib.Algebra.Group.Nat.Defs
import VariantCache.Codec.BitSource

/-!
# What decoders read

`Reads decoder s value rest` says that a decoder reads a value off the source `s` and
leaves `rest`. A decoder that is made of others reads step by step (`Reads.bind`), so
a stream that was written piece by piece is read piece by piece. The sources here
stand at a byte boundary, or inside a byte whose first bits were read.
-/

namespace VariantCache.Codec

/-- A decoder reads a value off a source and leaves the rest of it. -/
def Reads {α : Type} (decoder : BitDecoder α) (s : BitSource) (value : α) (rest : BitSource) :
    Prop :=
  decoder s = some (value, rest)

variable {α β : Type}

/-- A decoder after another starts where the first one stopped. -/
theorem Reads.bind {d : BitDecoder α} {f : α → BitDecoder β} {s s' s'' : BitSource} {a : α} {b : β}
    (first : Reads d s a s') (next : Reads (f a) s' b s'') : Reads (d >>= f) s b s'' := by
  unfold Reads at *
  show (d s).bind _ = _
  rw [first]
  exact next

/-- What a decoder after another reads, was read by the one and then by the other. -/
theorem Reads.exists_of_bind {d : BitDecoder α} {f : α → BitDecoder β} {s s'' : BitSource} {b : β}
    (h : Reads (d >>= f) s b s'') : ∃ a s', Reads d s a s' ∧ Reads (f a) s' b s'' := by
  obtain ⟨⟨a, s'⟩, first, next⟩ :=
    Option.bind_eq_some_iff.1 (show (d s).bind (fun r => f r.1 r.2) = some (b, s'') from h)
  exact ⟨a, s', first, next⟩

/-- Once it is known what the first decoder reads, the second one is left. -/
theorem Reads.after {d : BitDecoder α} {f : α → BitDecoder β} {s s' s'' : BitSource} {a : α} {b : β}
    (h : Reads (d >>= f) s b s'') (first : Reads d s a s') : Reads (f a) s' b s'' := by
  obtain ⟨a', t, hd, hf⟩ := h.exists_of_bind
  obtain ⟨rfl, rfl⟩ := Prod.mk.inj (Option.some.inj (first.symm.trans hd))
  exact hf

theorem reads_pure (a : α) (s : BitSource) : Reads (pure a) s a s := rfl

theorem Reads.map {d : BitDecoder α} {s s' : BitSource} {a : α} (h : Reads d s a s') (f : α → β) :
    Reads (d >>= fun a => pure (f a)) s (f a) s' := h.bind (reads_pure _ _)

namespace BitDecoder

theorem reads_require {ok : Bool} (h : ok = true) (s : BitSource) : Reads (require ok) s () s := by
  subst h
  rfl

theorem eq_true_of_reads_require {ok : Bool} {f : Unit → BitDecoder α} {s rest : BitSource} {a : α}
    (h : Reads (require ok >>= f) s a rest) : ok = true := by
  obtain ⟨_, _, first, _⟩ := h.exists_of_bind
  cases ok with
  | true => rfl
  | false => cases first

theorem reads_remaining (s : BitSource) : Reads remaining s s.size s := rfl

theorem reads_skipToByte (pending : List Bool) (rest : Bytes) :
    Reads skipToByte ⟨pending, rest⟩ () ⟨[], rest⟩ := rfl

theorem reads_zerosToByte {pending : List Bool} (h : pending.any id = false) (rest : Bytes) :
    Reads zerosToByte ⟨pending, rest⟩ () ⟨[], rest⟩ := by
  unfold Reads zerosToByte
  simp only [h]
  rfl

/-! ### Whole bytes -/

theorem reads_bytes {front : Bytes} {n : Nat} (width : front.length = n) (pending : List Bool)
    (rest : Bytes) : Reads (bytes n) ⟨pending, front ++ rest⟩ front ⟨[], rest⟩ := by
  unfold Reads bytes
  rw [Bytes.splitAt?_append width]
  rfl

/-- Bytes are read as the number that they spell. -/
theorem reads_littleEndian_toNat {front : Bytes} {n : Nat} (width : front.length = n)
    (pending : List Bool) (rest : Bytes) :
    Reads (littleEndian n) ⟨pending, front ++ rest⟩ front.toNat ⟨[], rest⟩ :=
  (reads_bytes width pending rest).map Bytes.toNat

/-- A number that was written without its high bytes is read without them. -/
theorem reads_littleEndian_mod (k n : Nat) (pending : List Bool) (rest : Bytes) :
    Reads (littleEndian k) ⟨pending, Bytes.littleEndian k n ++ rest⟩ (n % 256 ^ k) ⟨[], rest⟩ := by
  have h := reads_littleEndian_toNat (Bytes.length_littleEndian k n) pending rest
  rw [Bytes.toNat_littleEndian] at h
  exact h

theorem reads_littleEndian {k n : Nat} (fits : n < 256 ^ k) (pending : List Bool) (rest : Bytes) :
    Reads (littleEndian k) ⟨pending, Bytes.littleEndian k n ++ rest⟩ n ⟨[], rest⟩ := by
  have h := reads_littleEndian_mod k n pending rest
  rw [Nat.mod_eq_of_lt fits] at h
  exact h

theorem reads_bigEndian {k n : Nat} (fits : n < 256 ^ k) (pending : List Bool) (rest : Bytes) :
    Reads (bigEndian k) ⟨pending, Bytes.bigEndian k n ++ rest⟩ n ⟨[], rest⟩ := by
  have h := (reads_bytes (Bytes.length_bigEndian k n) pending rest).map fun b =>
      Bytes.toNat b.reverse
  rw [Bytes.bigEndian, List.reverse_reverse, Bytes.toNat_littleEndian,
    show Nat.pow 256 k = 256 ^ k from rfl, Nat.mod_eq_of_lt fits] at h
  exact h

/-! ### Bits -/

/-- A number is read in two parts, the low one first. -/
theorem reads_bits_add {m n low high : Nat} {s s' s'' : BitSource} (first : Reads (bits m) s low s')
    (next : Reads (bits n) s' high s'') : Reads (bits (m + n)) s (low + 2 ^ m * high) s'' := by
  induction m generalizing s low with
  | zero =>
    obtain ⟨rfl, rfl⟩ : 0 = low ∧ s = s' := Prod.mk.inj (Option.some.inj first)
    rw [Nat.zero_add, Nat.zero_add, Nat.pow_zero, Nat.one_mul]
    exact next
  | succ m ih =>
    rw [Nat.add_right_comm]
    obtain ⟨b, s₁, hb, first⟩ := first.exists_of_bind
    obtain ⟨h, s₂, hh, first⟩ := first.exists_of_bind
    obtain ⟨rfl, rfl⟩ : b.toNat + 2 * h = low ∧ s₂ = s' := Prod.mk.inj (Option.some.inj first)
    rw [Nat.pow_succ, Nat.mul_comm (2 ^ m) 2, Nat.mul_assoc, Nat.add_assoc b.toNat, ← Nat.mul_add]
    exact hb.bind ((ih hh).map _)

/-- What is left of a byte after its first `k` bits. -/
def inByte (b : UInt8) (k : Nat) (rest : Bytes) : BitSource := ⟨(bitsOfByte b).drop k, rest⟩

theorem inByte_of_lt (b : UInt8) {k : Nat} (h : k < 8) (rest : Bytes) :
    inByte b k rest = ⟨b.toNat.testBit k :: (bitsOfByte b).drop (k + 1), rest⟩ := by
  unfold inByte
  rw [List.drop_eq_getElem_cons (by simpa [bitsOfByte] using h)]
  simp [bitsOfByte]

theorem reads_bit (b : UInt8) {k : Nat} (h : k < 8) (rest : Bytes) :
    Reads bit (inByte b k rest) (b.toNat.testBit k) (inByte b (k + 1) rest) := by
  rw [inByte_of_lt b h]
  rfl

theorem testBit_add_mod (x k n : Nat) :
    (x.testBit k).toNat + 2 * (x / 2 ^ (k + 1) % 2 ^ n) = x / 2 ^ k % 2 ^ (n + 1) := by
  rw [Nat.toNat_testBit, Nat.pow_succ' (m := 2) (n := n), Nat.mod_mul, Nat.pow_succ,
    Nat.div_div_eq_div_mul]

/-- Bits inside one byte. -/
theorem reads_bits (b : UInt8) {k n : Nat} (h : k + n ≤ 8) (rest : Bytes) :
    Reads (bits n) (inByte b k rest) (b.toNat / 2 ^ k % 2 ^ n) (inByte b (k + n) rest) := by
  induction n generalizing k with
  | zero => rw [Nat.pow_zero, Nat.mod_one]; exact reads_pure 0 _
  | succ n ih =>
    rw [← testBit_add_mod]
    refine (reads_bit b (by omega) rest).bind ?_
    have := ih (k := k + 1) (by omega)
    rw [Nat.add_right_comm] at this
    exact this.map _

/-- At a byte boundary the next byte is begun. -/
theorem reads_bit_start (b : UInt8) (rest : Bytes) :
    Reads bit ⟨[], b :: rest⟩ (b.toNat.testBit 0) (inByte b 1 rest) := by
  unfold Reads inByte
  rw [List.drop_one]
  rfl

theorem reads_bits_start {b : UInt8} {n value : Nat} {rest : Bytes} {s : BitSource}
    (h : Reads (bits (n + 1)) (inByte b 0 rest) value s) :
    Reads (bits (n + 1)) ⟨[], b :: rest⟩ value s := by
  rw [inByte_of_lt b (by decide)] at h
  exact h

/-- A whole byte. -/
theorem reads_bits_byte (b : UInt8) (rest : Bytes) :
    Reads (bits 8) ⟨[], b :: rest⟩ b.toNat ⟨[], rest⟩ := by
  have h := reads_bits_start (reads_bits b (k := 0) (n := 8) (by decide) rest)
  rw [Nat.pow_zero, Nat.div_one, Nat.mod_eq_of_lt (by simpa using b.toNat_lt)] at h
  exact h

/-- The bits above the highest one of a byte are zero. -/
theorem reads_zeros (b : UInt8) {k : Nat} (small : b.toNat < 2 ^ k) (rest : Bytes) :
    Reads zerosToByte (inByte b k rest) () ⟨[], rest⟩ := by
  refine reads_zerosToByte ?_ rest
  rw [List.any_eq_false]
  intro bit hbit
  rw [bitsOfByte, ← List.map_drop, List.mem_map] at hbit
  obtain ⟨i, hi, rfl⟩ := hbit
  obtain ⟨j, hj, rfl⟩ := List.mem_iff_getElem.1 hi
  rw [List.getElem_drop, List.getElem_range]
  have : b.toNat < 2 ^ (k + j) :=
    Nat.lt_of_lt_of_le small (Nat.pow_le_pow_right (by decide) (by omega))
  simp [Nat.testBit_lt_two_pow this]

end BitDecoder

/-- Another piece that is not empty keeps a stream at least as long as it has pieces. -/
theorem length_cons_le_flatten {piece : Bytes} {pieces : List Bytes} (nonempty : 0 < piece.length)
    (h : pieces.length ≤ pieces.flatten.length) :
    (piece :: pieces).length ≤ (piece :: pieces).flatten.length := by
  rw [List.length_cons, List.flatten_cons, List.length_append]
  omega

end VariantCache.Codec
