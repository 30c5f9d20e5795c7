import VariantCache.Codec.Zstandard.Frame
import VariantCache.Proofs.Codec.Deflate

/-!
# Zstandard streams are read back

The stored blocks of a frame are read one after the other (`reads_blocks`), and a frame
is read up to its end (`reads_frame`). A stream is one frame after another, so frames
that were written one behind the other are read as the bytes of the first and then the
bytes of the second (`reads_encode_append`).
-/

namespace VariantCache.Codec.Zstandard

open BitDecoder

/-- The three bytes in front of a stored block: its last bit, a kind of zero, its length. -/
theorem reads_storedHeader {length : Nat} (fits : length ≤ blockLimit) (last : Bool)
    (rest : Bytes) :
    ∃ s s', Reads bit ⟨[], Bytes.littleEndian 3 (last.toNat + 8 * length) ++ rest⟩ last s ∧
      Reads (bits 2) s 0 s' ∧ Reads (bits 21) s' length ⟨[], rest⟩ := by
  generalize hn : last.toNat + 8 * length = n
  have bound : last.toNat < 2 := last.toNat_lt
  unfold blockLimit at fits
  obtain ⟨b0, b1, b2, hb, h0, h1, h2⟩ : ∃ b0 b1 b2 : UInt8, Bytes.littleEndian 3 n = [b0, b1, b2] ∧
      b0.toNat = n % 256 ∧ b1.toNat = n / 256 % 256 ∧ b2.toNat = n / 256 / 256 % 256 :=
    ⟨_, _, _, rfl, by simp, by simp, by simp⟩
  have hbit : b0.toNat.testBit 0 = last := by
    rw [Nat.testBit_zero, h0]
    cases last <;> simp at hn ⊢ <;> omega
  have hkind : b0.toNat / 2 ^ 1 % 2 ^ 2 = 0 := by omega
  have hlength :
      b0.toNat / 2 ^ 3 % 2 ^ 5 + 2 ^ 5 * (b1.toNat + 2 ^ 8 * b2.toNat) = length := by omega
  rw [hb]
  refine ⟨inByte b0 1 (b1 :: b2 :: rest), inByte b0 3 (b1 :: b2 :: rest), ?_, ?_, ?_⟩
  · rw [← hbit]
    exact reads_bit_start b0 _
  · rw [← hkind]
    exact reads_bits b0 (by decide) _
  · rw [← hlength]
    exact reads_bits_add (m := 5) (n := 16) (reads_bits b0 (k := 3) (by decide) _)
      (reads_bits_add (m := 8) (n := 8) (reads_bits_byte b1 _) (reads_bits_byte b2 _))

/-- A stored block is read, and says whether it is the last one. -/
theorem reads_storedBytes {data : Bytes} (fits : data.length ≤ blockLimit) (last : Bool)
    (fuel : Nat) (carry : Carry) (rest : Bytes) {final : Output} {s : BitSource}
    (next : Reads (if last then pure (carry.out.write data)
      else blocks blockLimit fuel { carry with out := carry.out.write data }) ⟨[], rest⟩ final s) :
    Reads (blocks blockLimit (fuel + 1) carry) ⟨[], storedBytes last data ++ rest⟩ final s := by
  obtain ⟨s₁, s₂, hbit, hkind, hlength⟩ := reads_storedHeader fits last (data ++ rest)
  rw [storedBytes, List.append_assoc]
  refine hbit.bind (hkind.bind (hlength.bind ?_))
  refine Reads.bind ((reads_require (decide_eq_true fits) _).bind ((reads_bytes rfl _ _).map _)) ?_
  exact next

theorem length_storedBytes_pos (last : Bool) (data : Bytes) :
    0 < (storedBytes last data).length := by
  rw [storedBytes, List.length_append, Bytes.length_littleEndian]
  omega

/-- Each block takes a byte at least. -/
theorem length_storedBlocks_le (data : Bytes) :
    (storedBlocks data).length ≤ (storedBlocks data).flatten.length := by
  fun_induction storedBlocks data with
  | case1 data _ => exact length_cons_le_flatten (length_storedBytes_pos _ _) (Nat.le_refl 0)
  | case2 data _ ih => exact length_cons_le_flatten (length_storedBytes_pos _ _) ih

/-- The stored blocks of a byte string are read one after the other. -/
theorem reads_blocks (data : Bytes) (fuel : Nat) (enough : (storedBlocks data).length ≤ fuel)
    (carry : Carry) (rest : Bytes) :
    Reads (blocks blockLimit fuel carry) ⟨[], (storedBlocks data).flatten ++ rest⟩
      (carry.out.write data) ⟨[], rest⟩ := by
  fun_induction storedBlocks data generalizing fuel carry with
  | case1 data fits =>
    obtain ⟨fuel, rfl⟩ : ∃ n, fuel = n + 1 := ⟨fuel - 1, by simp at enough; omega⟩
    rw [List.flatten_cons, List.flatten_nil, List.append_nil]
    exact reads_storedBytes fits true fuel carry rest (reads_pure _ _)
  | case2 data more ih =>
    rw [List.length_cons] at enough
    obtain ⟨fuel, rfl⟩ : ∃ n, fuel = n + 1 := ⟨fuel - 1, by omega⟩
    have fits : (data.take blockLimit).length ≤ blockLimit := List.length_take_le _ _
    rw [List.flatten_cons, List.append_assoc]
    refine reads_storedBytes fits false fuel carry _ ?_
    have h := ih fuel (by omega) { carry with out := carry.out.write (data.take blockLimit) }
    rw [← Output.write_append, List.take_append_drop] at h
    exact h

/-! ### Frames -/

/-- The window is as large as a block, and neither a size nor a checksum is given. -/
theorem reads_header (rest : Bytes) :
    Reads readHeader ⟨[], 0x00 :: 0x38 :: rest⟩ ⟨blockLimit, none, false⟩ ⟨[], rest⟩ := by
  refine (reads_bits_start (reads_bits 0x00 (k := 0) (n := 2) (by decide) _)).bind ?_
  refine (reads_bit 0x00 (k := 2) (by decide) _).bind ?_
  refine (reads_bit 0x00 (k := 3) (by decide) _).bind ?_
  refine (reads_require (by decide) _).bind ?_
  refine (reads_bit 0x00 (k := 4) (by decide) _).bind ?_
  refine (reads_bit 0x00 (k := 5) (by decide) _).bind ?_
  refine (reads_bits 0x00 (k := 6) (n := 2) (by decide) _).bind ?_
  rfl

/-- A frame is read up to its end. -/
theorem reads_frame (data rest : Bytes) :
    Reads frame ⟨[], (encode data).flatten ++ rest⟩ data ⟨[], rest⟩ := by
  have layout : (encode data).flatten ++ rest = Bytes.littleEndian 4 magic ++
      (0x00 :: 0x38 :: ((storedBlocks data).flatten ++ rest)) := by simp [encode, header]
  rw [layout]
  refine (reads_littleEndian (by decide) _ _).bind ?_
  refine (reads_header _).bind ?_
  refine (reads_remaining _).bind ?_
  have enough :
      (storedBlocks data).length ≤ BitSource.size ⟨[], (storedBlocks data).flatten ++ rest⟩ := by
    have := length_storedBlocks_le data
    simp only [BitSource.size, List.length_append]
    omega
  refine (reads_blocks data _ enough _ rest).bind ?_
  rw [Output.toList_write, List.nil_append]
  exact (reads_require rfl _).bind (reads_pure _ _)

/-! ### Streams -/

theorem length_encode_pos (data : Bytes) : 0 < (encode data).flatten.length := by
  rw [encode, List.flatten_cons, List.length_append]
  exact Nat.add_pos_left (by decide) _

/-- A frame at the end of a stream is the last one. -/
theorem reads_frames_last (data : Bytes) (fuel : Nat) :
    Reads (frames (fuel + 1)) ⟨[], (encode data).flatten⟩ data ⟨[], []⟩ := by
  have h := reads_frame data []
  rw [List.append_nil] at h
  exact h.bind (reads_pure _ _)

/-- A frame with something behind it is read, and then what is behind it. -/
theorem reads_frames_cons (data : Bytes) {rest more : Bytes} (behind : 0 < rest.length) {fuel : Nat}
    {s : BitSource} (next : Reads (frames fuel) ⟨[], rest⟩ more s) :
    Reads (frames (fuel + 1)) ⟨[], (encode data).flatten ++ rest⟩ (data ++ more) s := by
  have isMore : rest.isEmpty = false := by
    rw [List.isEmpty_eq_false_iff]
    exact List.ne_nil_of_length_pos behind
  refine (reads_frame data rest).bind ?_
  refine Reads.bind (a := (⟨[], rest⟩ : BitSource)) rfl ?_
  simp only [isMore, Bool.false_eq_true, if_false]
  exact next.map _

/-- **Zstandard**: what was written is read back. -/
theorem reads_encode (data : Bytes) : Reads decode ⟨[], (encode data).flatten⟩ data ⟨[], []⟩ := by
  have enough : 1 ≤ BitSource.size ⟨[], (encode data).flatten⟩ := by
    have := length_encode_pos data
    simp only [BitSource.size]
    omega
  obtain ⟨fuel, hf⟩ := Nat.exists_eq_add_of_le' enough
  refine (reads_remaining _).bind ?_
  rw [hf]
  exact reads_frames_last data fuel

/-- **Zstandard, twice**: two streams one behind the other are one stream. -/
theorem reads_encode_append (first second : Bytes) :
    Reads decode ⟨[], (encode first).flatten ++ (encode second).flatten⟩ 
      (first ++ second) ⟨[], []⟩ := by
  have enough : 2 ≤ BitSource.size ⟨[], (encode first).flatten ++ (encode second).flatten⟩ := by
    have := length_encode_pos first
    simp only [BitSource.size, List.length_append]
    omega
  obtain ⟨fuel, hf⟩ := Nat.exists_eq_add_of_le' enough
  refine (reads_remaining _).bind ?_
  rw [hf]
  exact reads_frames_cons first (length_encode_pos second) (reads_frames_last second fuel)

end VariantCache.Codec.Zstandard
