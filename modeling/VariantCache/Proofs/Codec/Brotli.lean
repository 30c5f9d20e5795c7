import VariantCache.Codec.Brotli.Stream
import VariantCache.Proofs.Codec.Deflate

/-!
# Brotli streams are read back

A stream begins with the width of its window and a meta-block without data, after which
the stored meta-blocks begin at a byte. They are read one after the other
(`reads_blocks`), up to the last, empty one.
-/

namespace VariantCache.Codec.Brotli

open BitDecoder

/-- The three bytes in front of a stored meta-block: not the last one, a length of four half
bytes, stored, and four bits left over. -/
theorem reads_storedHeader {length : Nat} (positive : 0 < length) (fits : length ≤ blockLimit)
    (rest : Bytes) :
    ∃ s₁ s₂ s₃ s₄, Reads bit ⟨[], Bytes.littleEndian 3 (storedHeader length) ++ rest⟩ false s₁ ∧
      Reads (bits 2) s₁ 0 s₂ ∧ Reads (bits 16) s₂ (length - 1) s₃ ∧ Reads bit s₃ true s₄ ∧
      Reads zerosToByte s₄ () ⟨[], rest⟩ := by
  generalize hn : storedHeader length = n
  unfold storedHeader at hn
  unfold blockLimit at fits
  obtain ⟨b0, b1, b2, hb, h0, h1, h2⟩ : ∃ b0 b1 b2 : UInt8, Bytes.littleEndian 3 n = [b0, b1, b2] ∧
      b0.toNat = n % 256 ∧ b1.toNat = n / 256 % 256 ∧ b2.toNat = n / 256 / 256 % 256 :=
    ⟨_, _, _, rfl, by simp, by simp, by simp⟩
  have hlast : b0.toNat.testBit 0 = false := by
    rw [Nat.testBit_zero, h0, decide_eq_false_iff_not]
    omega
  have hhalves : b0.toNat / 2 ^ 1 % 2 ^ 2 = 0 := by omega
  have hlength :
      b0.toNat / 2 ^ 3 % 2 ^ 5 + 2 ^ 5 * (b1.toNat + 2 ^ 8 * (b2.toNat / 2 ^ 0 % 2 ^ 3)) =
      length - 1 := by omega
  have hstored : b2.toNat.testBit 3 = true := by
    rw [Nat.testBit_eq_decide_div_mod_eq, decide_eq_true_iff]
    omega
  rw [hb]
  refine ⟨inByte b0 1 (b1 :: b2 :: rest), inByte b0 3 (b1 :: b2 :: rest), inByte b2 3 rest,
    inByte b2 4 rest, ?_, ?_, ?_, ?_, ?_⟩
  · rw [← hlast]
    exact reads_bit_start b0 _
  · rw [← hhalves]
    exact reads_bits b0 (by decide) _
  · rw [← hlength]
    exact reads_bits_add (m := 5) (n := 11) (reads_bits b0 (k := 3) (by decide) _)
      (reads_bits_add (m := 8) (n := 3) (reads_bits_byte b1 _)
        (reads_bits_start (reads_bits b2 (k := 0) (by decide) _)))
  · rw [← hstored]
    exact reads_bit b2 (by decide) _
  · exact reads_zeros b2 (by omega) _

/-- A stored meta-block is read, and the next one after it. -/
theorem reads_storedBlock {data : Bytes} (positive : 0 < data.length)
    (fits : data.length ≤ blockLimit) (window fuel : Nat) (recent : Recent) (out : Output)
    (rest : Bytes) {final : Output} {s : BitSource}
    (next : Reads (metaBlocks window fuel recent (out.write data)) ⟨[], rest⟩ final s) :
    Reads (metaBlocks window (fuel + 1) recent out)
      ⟨[], Bytes.littleEndian 3 (storedHeader data.length) ++ data ++ rest⟩ final s := by
  obtain ⟨s₁, s₂, s₃, s₄, hlast, hhalves, hlength, hstored, hzeros⟩ :=
    reads_storedHeader positive fits (data ++ rest)
  have whole : data.length = 1 + (data.length - 1) := by omega
  rw [List.append_assoc]
  refine hlast.bind ((reads_pure false _).bind (hhalves.bind ?_))
  refine hlength.bind ((reads_require rfl _).bind (hstored.bind (hzeros.bind ?_)))
  exact (reads_bytes whole _ _).bind ((reads_pure _ _).bind next)

/-- Each meta-block takes a byte at least. -/
theorem length_storedBlocks_le (data : Bytes) :
    (storedBlocks data).length ≤ (storedBlocks data).flatten.length := by
  fun_induction storedBlocks data with
  | case1 data _ => exact Nat.le_refl 0
  | case2 data _ ih =>
    refine length_cons_le_flatten ?_ ih
    rw [List.length_append, Bytes.length_littleEndian]
    omega

/-- The stored meta-blocks of a byte string are read one after the other, up to the last, empty
one. -/
theorem reads_blocks (data : Bytes) (window fuel : Nat) (enough : (storedBlocks data).length < fuel)
    (recent : Recent) (out : Output) (rest : Bytes) :
    Reads (metaBlocks window fuel recent out) ⟨[], (storedBlocks data).flatten ++ 0x03 :: rest⟩
      (out.write data) ⟨[], rest⟩ := by
  fun_induction storedBlocks data generalizing fuel out with
  | case1 data h =>
    obtain ⟨fuel, rfl⟩ : ∃ n, fuel = n + 1 := ⟨fuel - 1, by simp at enough; omega⟩
    rw [List.isEmpty_iff.1 h]
    refine (reads_bit_start 0x03 rest).bind ?_
    refine (reads_bit 0x03 (k := 1) (by decide) rest).bind ?_
    exact (reads_zeros 0x03 (k := 2) (by decide) rest).bind (reads_pure _ _)
  | case2 data h ih =>
    rw [List.length_cons] at enough
    obtain ⟨fuel, rfl⟩ : ∃ n, fuel = n + 1 := ⟨fuel - 1, by omega⟩
    have positive : 0 < data.length := List.length_pos_iff.2 (by simpa using h)
    have width : (data.take blockLimit).length = min blockLimit data.length := List.length_take
    rw [List.flatten_cons, List.append_assoc, ← width]
    refine reads_storedBlock (by rw [width]; exact Nat.lt_min.2 ⟨by decide, positive⟩)
      (by rw [width]; exact Nat.min_le_left _ _) window fuel recent out _ ?_
    have step := ih fuel (by omega) (out.write (data.take blockLimit))
    rw [← Output.write_append, List.take_append_drop] at step
    exact step

/-! ### Streams -/

/-- The width of the window is written in the low half of the first byte. -/
theorem reads_window (rest : Bytes) :
    Reads windowBits ⟨[], 0x6b :: rest⟩ 22 (inByte 0x6b 4 rest) := by
  refine (reads_bit_start 0x6b rest).bind ?_
  exact (reads_bits 0x6b (k := 1) (n := 3) (by decide) rest).bind rfl

/-- A meta-block without data fills up the first two bytes. -/
theorem reads_filler (window fuel : Nat) (recent : Recent) (out : Output) (rest : Bytes)
    {final : Output} {s : BitSource}
    (next : Reads (metaBlocks window fuel recent out) ⟨[], rest⟩ final s) :
    Reads (metaBlocks window (fuel + 1) recent out) (inByte 0x6b 4 (0x00 :: rest)) final s := by
  refine (reads_bit 0x6b (k := 4) (by decide) _).bind ((reads_pure false _).bind ?_)
  refine (reads_bits 0x6b (k := 5) (n := 2) (by decide) _).bind ?_
  refine Reads.bind (a := ()) ?_ ((reads_pure (recent, out) _).bind next)
  refine (reads_bit 0x6b (k := 7) (by decide) _).bind ?_
  refine (reads_require (by decide) _).bind ?_
  refine (reads_bits_start (reads_bits 0x00 (k := 0) (n := 2) (by decide) rest)).bind ?_
  refine (reads_pure 0 _).bind ?_
  refine (reads_require (by decide) _).bind ?_
  refine (reads_zeros 0x00 (k := 2) (by decide) rest).bind ?_
  exact (reads_bytes (n := 0) List.length_nil [] rest).bind (reads_pure _ _)

/-- **Brotli**: what was written is read back, and what follows is left alone. -/
theorem reads_encode (data rest : Bytes) :
    Reads decode ⟨[], (encode data).flatten ++ rest⟩ data ⟨[], rest⟩ := by
  have layout : (encode data).flatten ++ rest =
      0x6b :: 0x00 :: ((storedBlocks data).flatten ++ 0x03 :: rest) := by simp [encode]
  rw [layout]
  refine (reads_window _).bind ?_
  have enough : (storedBlocks data).length + 2 ≤
      BitSource.size (inByte 0x6b 4 (0x00 :: ((storedBlocks data).flatten ++ 0x03 :: rest))) := by
    have := length_storedBlocks_le data
    simp only [BitSource.size, inByte, List.length_cons, List.length_append]
    omega
  obtain ⟨fuel, hf⟩ := Nat.exists_eq_add_of_le' (Nat.le_trans (Nat.le_add_left 1 _) enough)
  refine (reads_remaining _).bind ?_
  rw [hf]
  refine (reads_filler _ fuel _ _ _ (reads_blocks data _ fuel (by omega) _ _ rest)).bind ?_
  rw [Output.toList_write, List.nil_append]
  exact reads_pure _ _

end VariantCache.Codec.Brotli
