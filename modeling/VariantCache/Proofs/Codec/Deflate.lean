import VariantCache.Codec.Gzip
import VariantCache.Codec.Zlib
import VariantCache.Proofs.Codec.Reading

/-!
# Deflate, zlib and gzip streams are read back

The stored blocks of a byte string are read one after the other, and what follows the
last of them is left alone (`Deflate.reads_encode`). A zlib stream and a gzip member
put a header before the blocks and checksums after them, so the same holds of both:
whatever stands behind the checksum does not matter (`Zlib.reads_encode`,
`Gzip.reads_encode`).
-/

namespace VariantCache.Codec

/-! ### Output -/

@[simp] theorem Output.toList_write (out : Output) (new : Bytes) :
    (out.write new).toList = out.toList ++ new := by
  induction new generalizing out with
  | nil => simp [Output.write]
  | cons b new ih =>
    rw [Output.write, List.foldl_cons, ← Output.write, ih]
    simp

theorem Output.write_append (out : Output) (first second : Bytes) :
    out.write (first ++ second) = (out.write first).write second := List.foldl_append

/-! ### Deflate -/

namespace Deflate

open BitDecoder

/-- A stored block is read, and says whether it is the last one. -/
theorem reads_storedBytes {data : Bytes} (fits : data.length ≤ blockLimit) (last : Bool)
    (fuel : Nat) (out : Output) (rest : Bytes) {final : Output} {s : BitSource}
    (next : Reads (if last then pure (out.write data) else blocks fuel (out.write data))
      ⟨[], rest⟩ final s) :
    Reads (blocks (fuel + 1) out) ⟨[], storedBytes last data ++ rest⟩ final s := by
  have bound : data.length < 65536 := Nat.lt_succ_of_le fits
  obtain ⟨b, hb, h0, hk⟩ : ∃ b : UInt8, b = (if last then 1 else 0) ∧ b.toNat.testBit 0 = last ∧
      b.toNat / 2 ^ 1 % 2 ^ 2 = 0 := by cases last <;> exact ⟨_, rfl, by decide, by decide⟩
  have layout : storedBytes last data ++ rest =
      b :: (Bytes.littleEndian 2 data.length ++ (Bytes.littleEndian 2 (65535 - data.length) ++
        (data ++ rest))) := by simp [storedBytes, hb]
  rw [layout]
  refine (reads_bit_start b _).bind ?_
  refine (reads_bits b (k := 1) (n := 2) (by decide) _).bind ?_
  rw [h0, hk]
  refine Reads.bind ?_ next
  refine (reads_skipToByte _ _).bind ?_
  refine (reads_littleEndian (by omega) _ _).bind ?_
  refine (reads_littleEndian (by omega) _ _).bind ?_
  refine (reads_require (by simp only [decide_eq_true_eq]; omega) _).bind ?_
  exact (reads_bytes rfl _ _).map _

theorem length_storedBytes_pos (last : Bool) (data : Bytes) : 0 < (storedBytes last data).length :=
  Nat.succ_pos _

/-- Each block takes a byte at least. -/
theorem length_encode_le (data : Bytes) : (encode data).length ≤ (encode data).flatten.length := by
  fun_induction encode data with
  | case1 data _ => exact length_cons_le_flatten (length_storedBytes_pos _ _) (Nat.le_refl 0)
  | case2 data _ ih => exact length_cons_le_flatten (length_storedBytes_pos _ _) ih

/-- The stored blocks of a byte string are read one after the other. -/
theorem reads_blocks (data : Bytes) (fuel : Nat) (enough : (encode data).length ≤ fuel)
    (out : Output) (rest : Bytes) :
    Reads (blocks fuel out) ⟨[], (encode data).flatten ++ rest⟩ (out.write data) ⟨[], rest⟩ := by
  fun_induction encode data generalizing fuel out with
  | case1 data fits =>
    obtain ⟨fuel, rfl⟩ : ∃ n, fuel = n + 1 := ⟨fuel - 1, by simp at enough; omega⟩
    rw [List.flatten_cons, List.flatten_nil, List.append_nil]
    exact reads_storedBytes fits true fuel out rest (reads_pure _ _)
  | case2 data more ih =>
    rw [List.length_cons] at enough
    obtain ⟨fuel, rfl⟩ : ∃ n, fuel = n + 1 := ⟨fuel - 1, by omega⟩
    have fits : (data.take blockLimit).length ≤ blockLimit := List.length_take_le _ _
    rw [List.flatten_cons, List.append_assoc]
    refine reads_storedBytes fits false fuel out _ ?_
    have h := ih fuel (by omega) (out.write (data.take blockLimit))
    rw [← Output.write_append, List.take_append_drop] at h
    exact h

/-- **Deflate**: what was written is read back, and what follows is left alone. -/
theorem reads_encode (data rest : Bytes) :
    Reads decode ⟨[], (encode data).flatten ++ rest⟩ (Output.write #[] data) ⟨[], rest⟩ := by
  refine (reads_remaining _).bind (reads_blocks data _ ?_ _ rest)
  have := length_encode_le data
  simp only [BitSource.size, List.length_append]
  omega

end Deflate

/-! ### zlib -/

namespace Zlib

open BitDecoder

theorem adlerByte_lt (sums : Nat × Nat) (b : UInt8) :
    (Checksum.adlerByte sums b).1 < Checksum.adlerModulus ∧
      (Checksum.adlerByte sums b).2 < Checksum.adlerModulus :=
  ⟨Nat.mod_lt _ (by decide), Nat.mod_lt _ (by decide)⟩

theorem adlerSums_lt (data : Bytes) (sums : Nat × Nat)
    (h : sums.1 < Checksum.adlerModulus ∧ sums.2 < Checksum.adlerModulus) :
    (data.foldl Checksum.adlerByte sums).1 < Checksum.adlerModulus ∧
      (data.foldl Checksum.adlerByte sums).2 < Checksum.adlerModulus := by
  induction data generalizing sums with
  | nil => exact h
  | cons b data ih => exact ih _ (adlerByte_lt sums b)

/-- The checksum has room in four bytes. -/
theorem adler32_lt (data : Bytes) : Checksum.adler32 data < 256 ^ 4 := by
  obtain ⟨h1, h2⟩ := adlerSums_lt data (1, 0) (by decide)
  unfold Checksum.adler32 Checksum.adlerModulus at *
  simp only
  omega

/-- **zlib**: what was written is read back, and what follows is left alone. -/
theorem reads_encode (data rest : Bytes) :
    Reads decode ⟨[], (encode data).flatten ++ rest⟩ data ⟨[], rest⟩ := by
  have layout : (encode data).flatten ++ rest = header ++ ((Deflate.encode data).flatten ++
      (Bytes.bigEndian 4 (Checksum.adler32 data) ++ rest)) := by simp [encode]
  rw [layout]
  refine (reads_littleEndian (k := 1) (n := 0x78) (by decide) _ _).bind ?_
  refine (reads_littleEndian (k := 1) (n := 0x9c) (by decide) _ _).bind ?_
  refine (reads_require (by decide) _).bind ?_
  refine (Deflate.reads_encode data _).bind ?_
  refine (reads_skipToByte _ _).bind ?_
  refine (reads_bigEndian (adler32_lt data) _ _).bind ?_
  rw [Output.toList_write, List.nil_append]
  exact (reads_require (beq_self_eq_true _) _).bind (reads_pure _ _)

end Zlib

/-! ### gzip -/

namespace Gzip

open BitDecoder

/-- The header that the encoder writes has no optional field. -/
theorem reads_header (rest : Bytes) : Reads readHeader ⟨[], header ++ rest⟩ () ⟨[], rest⟩ := by
  refine (reads_bytes (n := 10) rfl _ _).bind ?_
  refine (reads_require (by decide) _).bind ?_
  exact (reads_pure _ _).bind (reads_pure _ _)

/-- **gzip**: what was written is read back, and what follows is left alone. -/
theorem reads_encode (data rest : Bytes) :
    Reads decode ⟨[], (encode data).flatten ++ rest⟩ data ⟨[], rest⟩ := by
  have layout : (encode data).flatten ++ rest = header ++ ((Deflate.encode data).flatten ++
      (Bytes.littleEndian 4 (Checksum.crc32 data).toNat ++
        (Bytes.littleEndian 4 data.length ++ rest))) := by simp [encode]
  rw [layout]
  refine (reads_header _).bind ?_
  refine (Deflate.reads_encode data _).bind ?_
  refine (reads_skipToByte _ _).bind ?_
  refine (reads_littleEndian (Checksum.crc32 data).toNat_lt _ _).bind ?_
  rw [Output.toList_write, List.nil_append]
  refine (reads_require (beq_self_eq_true _) _).bind ?_
  refine (reads_littleEndian_mod 4 data.length _ _).bind ?_
  exact (reads_require (beq_self_eq_true _) _).bind (reads_pure _ _)

end Gzip
end VariantCache.Codec
