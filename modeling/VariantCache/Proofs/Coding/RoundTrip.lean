import VariantCache.Coding
import VariantCache.Proofs.Codec.Brotli
import VariantCache.Proofs.Codec.Deflate
import VariantCache.Proofs.Codec.Zstandard

/-!
# What is encoded decodes to what it was

A sink without a limit takes all the pieces of a coded body, so encoding succeeds in every
real coding (`exists_encode`), and a coded body decodes to the plain one
(`decode_encode`). The zlib format and the gzip format leave alone what follows, and
Zstandard streams may be put one behind the other; **`decode_encode_supported`** says all
of it.
-/

namespace VariantCache.Coding

open Codec

/-! ### Delivery -/

/-- A sink without a limit takes every piece. -/
theorem writeAll_unlimited (pieces : List Bytes) (written : Bytes) :
    Sink.writeAll ⟨written, none⟩ pieces = (true, ⟨written ++ pieces.flatten, none⟩) := by
  induction pieces generalizing written with
  | nil => simp [Sink.writeAll]
  | cons piece pieces ih => simp [Sink.writeAll, Sink.write, ih]

/-- A coded body is its pieces one after the other. -/
theorem encode_eq_ok_iff {coding : Coding} {plain coded : Bytes} :
    coding.encode plain = .ok coded ↔
      ∃ pieces, coding.pieces? plain = some pieces ∧ pieces.flatten = coded := by
  unfold encode encodeTo
  cases h : coding.pieces? plain with
  | none => simp [Except.map]
  | some pieces => simp [deliver, Sink.unlimited, writeAll_unlimited, Except.map]

/-- Encoding succeeds in every real coding. -/
theorem exists_encode {coding : Coding} (real : coding.isReal = true) (plain : Bytes) :
    ∃ coded, coding.encode plain = .ok coded := by
  cases coding with
  | compress | unsupported => exact absurd real (by decide)
  | identity | brotli | deflate | gzip | zstandard => exact ⟨_, encode_eq_ok_iff.2 ⟨_, rfl, rfl⟩⟩

/-! ### Decoding -/

/-- The decoder of a compressed coding. -/
def decoder? : Coding → Option (BitDecoder Bytes)
  | brotli => some Brotli.decode
  | deflate => some Zlib.decode
  | gzip => some Gzip.decode
  | zstandard => some Zstandard.decode
  | identity | compress | unsupported => none

/-- A body decodes to what the decoder of its coding reads. -/
theorem decode_of_reads {coding : Coding} {decoder : BitDecoder Bytes}
    (h : coding.decoder? = some decoder) {body plain : Bytes} {s : BitSource}
    (reads : Reads decoder ⟨[], body⟩ plain s) :
    coding.decode body = .ok plain := by
  cases coding with
  | identity | compress | unsupported => cases h
  | brotli | deflate | gzip | zstandard =>
    obtain rfl := Option.some.inj h
    simp only [decode, BitSource.ofBytes, show _ = some (plain, s) from reads]

/-- A coded body decodes to the plain one. -/
theorem decode_encode {coding : Coding} {plain coded : Bytes}
    (h : coding.encode plain = .ok coded) :
    coding.decode coded = .ok plain := by
  obtain ⟨pieces, hp, rfl⟩ := encode_eq_ok_iff.1 h
  cases coding with
  | compress | unsupported => cases hp
  | identity =>
    obtain rfl := Option.some.inj hp
    simp [decode]
  | brotli =>
    obtain rfl := Option.some.inj hp
    exact decode_of_reads rfl (by simpa using Brotli.reads_encode plain [])
  | deflate =>
    obtain rfl := Option.some.inj hp
    exact decode_of_reads rfl (by simpa using Zlib.reads_encode plain [])
  | gzip =>
    obtain rfl := Option.some.inj hp
    exact decode_of_reads rfl (by simpa using Gzip.reads_encode plain [])
  | zstandard =>
    obtain rfl := Option.some.inj hp
    exact decode_of_reads rfl (Zstandard.reads_encode plain)

/-- The zlib format and the gzip format end by themselves: what follows is left alone. -/
theorem decode_encode_append {coding : Coding} (h : coding = gzip ∨ coding = deflate)
    {plain coded : Bytes} (he : coding.encode plain = .ok coded) (rest : Bytes) :
    coding.decode (coded ++ rest) = .ok plain := by
  obtain ⟨pieces, hp, rfl⟩ := encode_eq_ok_iff.1 he
  rcases h with rfl | rfl
  · obtain rfl := Option.some.inj hp
    exact decode_of_reads rfl (Gzip.reads_encode plain rest)
  · obtain rfl := Option.some.inj hp
    exact decode_of_reads rfl (Zlib.reads_encode plain rest)

/-- Zstandard streams one behind the other decode to their plain bodies one behind the other. -/
theorem decode_zstandard_append {first second coded₁ coded₂ : Bytes}
    (h₁ : zstandard.encode first = .ok coded₁) (h₂ : zstandard.encode second = .ok coded₂) :
    zstandard.decode (coded₁ ++ coded₂) = .ok (first ++ second) := by
  obtain ⟨pieces₁, hp₁, rfl⟩ := encode_eq_ok_iff.1 h₁
  obtain ⟨pieces₂, hp₂, rfl⟩ := encode_eq_ok_iff.1 h₂
  obtain rfl := Option.some.inj hp₁
  obtain rfl := Option.some.inj hp₂
  exact decode_of_reads rfl (Zstandard.reads_encode_append first second)

/-- **The round trip.** Every supported coding encodes every byte string, and decodes it to
what it was; gzip and zlib do so with anything behind the coded body; and Zstandard
bodies one behind the other decode to the two byte strings one behind the other. -/
theorem decode_encode_supported :
    (∀ coding ∈ supported, ∀ x, ∃ coded, coding.encode x = .ok coded ∧
      coding.decode coded = .ok x) ∧
    (∀ coding ∈ [gzip, deflate], ∀ x z, ∃ coded,
      coding.encode x = .ok coded ∧ coding.decode (coded ++ z) = .ok x) ∧
    (∀ x y, ∃ first second, zstandard.encode x = .ok first ∧ zstandard.encode y = .ok second ∧
      zstandard.decode (first ++ second) = .ok (x ++ y)) := by
  refine ⟨fun coding hc x => ?_, fun coding hc x z => ?_, fun x y => ?_⟩
  · have real : coding.isReal = true := by
      revert hc
      cases coding <;> decide
    obtain ⟨coded, he⟩ := exists_encode real x
    exact ⟨coded, he, decode_encode he⟩
  · have hc : coding = gzip ∨ coding = deflate := by simpa using hc
    have real : coding.isReal = true := by rcases hc with rfl | rfl <;> rfl
    obtain ⟨coded, he⟩ := exists_encode real x
    exact ⟨coded, he, decode_encode_append hc he z⟩
  · obtain ⟨first, h₁⟩ := exists_encode (show zstandard.isReal = true from rfl) x
    obtain ⟨second, h₂⟩ := exists_encode (show zstandard.isReal = true from rfl) y
    exact ⟨first, second, h₁, h₂, decode_zstandard_append h₁ h₂⟩

/-- A body of several blocks in brotli, and a body with something behind it in gzip. -/
theorem decode_encode_several_blocks :
    (brotli ∈ supported ∧ ∃ coded, brotli.encode (List.replicate 200000 0x61) = .ok coded ∧
      brotli.decode coded = .ok (List.replicate 200000 0x61)) ∧
    (gzip ∈ [gzip, deflate] ∧ ∃ coded, gzip.encode (List.replicate 200000 0x61) = .ok coded ∧
      gzip.decode (coded ++ [1, 2, 3]) = .ok (List.replicate 200000 0x61)) :=
  ⟨⟨by decide, decode_encode_supported.1 brotli (by decide) _⟩,
    ⟨by decide, decode_encode_supported.2.1 gzip (by decide) _ _⟩⟩

end VariantCache.Coding
