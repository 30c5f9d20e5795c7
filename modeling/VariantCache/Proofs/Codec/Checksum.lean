import VariantCache.Proofs.Bytes
import VariantCache.Proofs.Codec.Deflate

/-!
# Altered checksums are found

Behind the blocks that were written for a byte string, the decoders of zlib streams and of gzip
members take one checksum only, and that is the one that was written (`Zlib.eq_of_reads`,
`Gzip.eq_of_reads`). The number of plain bytes at the end of a gzip member counts as a part of its
checksum here.
-/

namespace VariantCache.Codec

open BitDecoder

/-! ### zlib -/

namespace Zlib

/-- The checksum of a stream. -/
def sums (data : Bytes) : Bytes := Bytes.bigEndian 4 (Checksum.adler32 data)

/-- What stands in front of the checksum. -/
def body (data : Bytes) : Bytes := header ++ (Deflate.encode data).flatten

theorem flatten_encode (data : Bytes) : (encode data).flatten = body data ++ sums data := by
  simp [encode, body, sums]

theorem length_sums (data : Bytes) : (sums data).length = 4 := Bytes.length_bigEndian 4 _

/-- **zlib**: the checksum that is read is the one that was written. -/
theorem eq_of_reads {data found plain : Bytes} {s : BitSource} (width : found.length = 4)
    (h : Reads decode ⟨[], body data ++ found⟩ plain s) : found = sums data := by
  have layout : body data ++ found = header ++ ((Deflate.encode data).flatten ++ found) :=
    List.append_assoc _ _ _
  rw [layout] at h
  have h := h.after (reads_littleEndian (k := 1) (n := 0x78) (by decide) _ _)
  have h := h.after (reads_littleEndian (k := 1) (n := 0x9c) (by decide) _ _)
  have h := h.after (reads_require (by decide) _)
  have h := h.after (Deflate.reads_encode data found)
  have h := h.after (reads_skipToByte _ _)
  rw [← List.append_nil found] at h
  have h := h.after ((reads_bytes width _ _).map fun b => Bytes.toNat b.reverse)
  have number := beq_iff_eq.1 (eq_true_of_reads_require h)
  rw [Output.toList_write, List.nil_append] at number
  have written : Bytes.toNat (sums data).reverse = Checksum.adler32 data := by
    rw [sums, Bytes.bigEndian, List.reverse_reverse, Bytes.toNat_littleEndian,
      show Nat.pow 256 4 = 256 ^ 4 from rfl, Nat.mod_eq_of_lt (adler32_lt data)]
  refine List.reverse_inj.1 ((Bytes.toNat_inj ?_).1 (number.trans written.symm))
  rw [List.length_reverse, List.length_reverse, width, length_sums]

end Zlib

/-! ### gzip -/

namespace Gzip

/-- The checksum of a member and the number of its plain bytes. -/
def sums (data : Bytes) : Bytes :=
  Bytes.littleEndian 4 (Checksum.crc32 data).toNat ++ Bytes.littleEndian 4 data.length

/-- What stands in front of them. -/
def body (data : Bytes) : Bytes := header ++ (Deflate.encode data).flatten

theorem flatten_encode (data : Bytes) : (encode data).flatten = body data ++ sums data := by
  simp [encode, body, sums]

theorem length_sums (data : Bytes) : (sums data).length = 8 := by simp [sums]

/-- **gzip**: the checksum and the number that are read are those that were written. -/
theorem eq_of_reads {data found plain : Bytes} {s : BitSource} (width : found.length = 8)
    (h : Reads decode ⟨[], body data ++ found⟩ plain s) : found = sums data := by
  have layout : body data ++ found =
      header ++ ((Deflate.encode data).flatten ++ (found.take 4 ++ (found.drop 4 ++ []))) := by
    rw [List.append_nil, List.take_append_drop, body, List.append_assoc]
  have front : (found.take 4).length = 4 := by rw [List.length_take, width]; rfl
  have back : (found.drop 4).length = 4 := by rw [List.length_drop, width]
  rw [layout] at h
  have h := h.after (reads_header _)
  have h := h.after (Deflate.reads_encode data _)
  have h := h.after (reads_skipToByte _ _)
  have h := h.after (reads_littleEndian_toNat front _ _)
  have crc := beq_iff_eq.1 (eq_true_of_reads_require h)
  have h := h.after (reads_require (beq_iff_eq.2 crc) _)
  have h := h.after (reads_littleEndian_toNat back _ _)
  have count := beq_iff_eq.1 (eq_true_of_reads_require h)
  rw [Output.toList_write, List.nil_append] at crc count
  rw [← List.take_append_drop 4 found, sums]
  congr 1
  · refine (Bytes.toNat_inj (front.trans (Bytes.length_littleEndian 4 _).symm)).1 ?_
    rw [crc, Bytes.toNat_littleEndian]
    exact (Nat.mod_eq_of_lt (Checksum.crc32 data).toNat_lt).symm
  · refine (Bytes.toNat_inj (back.trans (Bytes.length_littleEndian 4 _).symm)).1 ?_
    rw [count, Bytes.toNat_littleEndian]

end Gzip
end VariantCache.Codec
