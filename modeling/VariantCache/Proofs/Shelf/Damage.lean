import VariantCache.Proofs.Codec.Checksum
import VariantCache.Proofs.Codec.Persistence.Brotli
import VariantCache.Proofs.Codec.Persistence.Deflate
import VariantCache.Proofs.Codec.Persistence.Zstandard
import VariantCache.Proofs.Representation.Conversion
import VariantCache.Proofs.Shelf.Payload

/-!
# Damaged bodies

A coded body is damaged when it was cut short, wherever that is, or when bytes of the checksum at
its end were changed (`Coding.Damaged`). None of the compressed codings decodes a damaged body
(`Coding.decode_damaged`): a decoder that ends by itself would have left the rest of the whole body
behind, and the checksum it takes is the one that was written. A damaged body is therefore never
what another one is made from (`Shelf.damaged_never_complete`).
-/

namespace VariantCache

namespace Coding

open Codec

/-- The codings that compress. -/
def compressed : List Coding := [brotli, deflate, gzip, zstandard]

/-- How many bytes at the end of a coded body are a checksum. -/
def checksumWidth : Coding → Nat
  | deflate => 4
  | gzip => 8
  | identity | brotli | zstandard | compress | unsupported => 0

/-- What damage may leave of a coded body. -/
inductive Damaged (coding : Coding) (coded : Bytes) : Bytes → Prop where
  /-- Bytes at the end are missing. -/
  | cut {front : Bytes} (h : front <+: coded) (ne : front ≠ coded) : Damaged coding coded front
  /-- The checksum at the end is another one. -/
  | altered {front sums other : Bytes} (whole : coded = front ++ sums)
    (width : sums.length = coding.checksumWidth) (same : other.length = sums.length)
    (ne : other ≠ sums) : Damaged coding coded (front ++ other)

/-- A body that the decoder of its coding does not read is broken. -/
theorem decode_of_none {coding : Coding} {decoder : BitDecoder Bytes}
    (h : coding.decoder? = some decoder) {body : Bytes} (unread : decoder ⟨[], body⟩ = none) :
    coding.decode body = .error (.broken coding) := by
  cases coding with
  | identity | compress | unsupported => cases h
  | brotli | deflate | gzip | zstandard =>
    obtain rfl := Option.some.inj h
    simp only [decode, BitSource.ofBytes, unread]

/-- A coded body is read by a decoder that does not look ahead, and what that one does not read is
broken. For Zstandard it is the decoder of the first frame. -/
theorem exists_persists {coding : Coding} (hc : coding ∈ compressed) {plain coded : Bytes}
    (h : coding.encode plain = .ok coded) :
    ∃ decoder : BitDecoder Bytes, Persists decoder decoder ∧
      Reads decoder ⟨[], coded⟩ plain ⟨[], []⟩ ∧
      ∀ body, decoder ⟨[], body⟩ = none → coding.decode body = .error (.broken coding) := by
  obtain ⟨pieces, hp, rfl⟩ := encode_eq_ok_iff.1 h
  cases coding with
  | identity | compress | unsupported => exact absurd hc (by decide)
  | brotli =>
    obtain rfl := Option.some.inj hp
    exact ⟨Brotli.decode, Brotli.persists_decode, by simpa using Brotli.reads_encode plain [],
      fun _ => decode_of_none rfl⟩
  | deflate =>
    obtain rfl := Option.some.inj hp
    exact ⟨Zlib.decode, Zlib.persists_decode, by simpa using Zlib.reads_encode plain [],
      fun _ => decode_of_none rfl⟩
  | gzip =>
    obtain rfl := Option.some.inj hp
    exact ⟨Gzip.decode, Gzip.persists_decode, by simpa using Gzip.reads_encode plain [],
      fun _ => decode_of_none rfl⟩
  | zstandard =>
    obtain rfl := Option.some.inj hp
    exact ⟨Zstandard.frame, Zstandard.persists_frame, by simpa using Zstandard.reads_frame plain [],
      fun _ unread => decode_of_none rfl (Zstandard.decode_eq_none unread)⟩

/-- A checksum in the place of the one that was written is not read. -/
theorem decode_of_altered {coding : Coding} {plain front sums other : Bytes}
    (h : coding.encode plain = .ok (front ++ sums)) (width : sums.length = coding.checksumWidth)
    (same : other.length = sums.length) (ne : other ≠ sums) :
    coding.decode (front ++ other) = .error (.broken coding) := by
  obtain ⟨pieces, hp, whole⟩ := encode_eq_ok_iff.1 h
  -- A decoder that reads the bytes in front reads nothing but the checksum behind them.
  have refused {decoder : BitDecoder Bytes} {front' sums' : Bytes} (hd : coding.decoder? = some decoder)
      (layout : pieces.flatten = front' ++ sums') (width' : sums'.length = coding.checksumWidth)
      (only : ∀ {plain s}, Reads decoder ⟨[], front' ++ other⟩ plain s → other = sums') :
      coding.decode (front ++ other) = .error (.broken coding) := by
    obtain ⟨rfl, rfl⟩ := List.append_inj' (layout.symm.trans whole) (width'.trans width.symm)
    refine decode_of_none hd (Option.eq_none_iff_forall_ne_some.2 fun (plain, s) read => ne ?_)
    exact only (show Reads _ _ plain s from read)
  cases coding with
  | compress | unsupported => cases hp
  | identity | brotli | zstandard =>
    obtain rfl := List.length_eq_zero_iff.1 width
    exact absurd (List.length_eq_zero_iff.1 same) ne
  | deflate =>
    obtain rfl := Option.some.inj hp
    exact refused rfl (Zlib.flatten_encode plain) (Zlib.length_sums plain)
      (Zlib.eq_of_reads (same.trans width))
  | gzip =>
    obtain rfl := Option.some.inj hp
    exact refused rfl (Gzip.flatten_encode plain) (Gzip.length_sums plain)
      (Gzip.eq_of_reads (same.trans width))

/-- **A damaged body does not decode.** -/
theorem decode_damaged {coding : Coding} (hc : coding ∈ compressed) {plain coded damaged : Bytes}
    (h : coding.encode plain = .ok coded) (damage : Damaged coding coded damaged) :
    coding.decode damaged = .error (.broken coding) := by
  cases damage with
  | cut short ne =>
    obtain ⟨back, rfl⟩ := short
    obtain ⟨decoder, persists, whole, refused⟩ := exists_persists hc h
    have more : back ≠ [] := by
      rintro rfl
      exact ne (List.append_nil _).symm
    exact refused _ (persists.eq_none_of_cut whole more)
  | altered whole width same ne =>
    subst whole
    exact decode_of_altered h width same ne

end Coding

/-! ### What is made where a body is damaged -/

namespace Bodies

variable {b : Bodies} {coding target : Coding} {body : Bytes}

/-- The bodies without the one in a coding. -/
def without (b : Bodies) (coding : Coding) : Bodies :=
  ⟨fun c => if c = coding then none else b.get? c⟩

/-- A body that does not decode is no source. -/
theorem payload?_without {failure : Coding.Failure} (there : b.get? coding = some body)
    (h : coding.decode body = .error failure) : (b.without coding).payload? = b.payload? := by
  refine congrArg (Coding.sourceOrder.findSome? ·) (funext fun source => ?_)
  by_cases same : source = coding
  · subst same
    simp [content?, without, there, h, Except.toOption]
  · simp [content?, without, same]

/-- Another body is made as if the one that does not decode were not there. -/
theorem fetch_without {failure : Coding.Failure} (there : b.get? coding = some body)
    (h : coding.decode body = .error failure) (other : target ≠ coding) :
    ((b.without coding).fetch target).1 = (b.fetch target).1 := by
  have same : (b.without coding).get? target = b.get? target := if_neg other
  have payload := payload?_without there h
  have request := request_fetch b target
  generalize b.fetch target = result at *
  cases request with
  | stored hs => rw [fetch_of_stored (same.trans hs)]
  | made absent real hp he => rw [fetch_of_payload (same.trans absent) real (payload.trans hp) he]
  | missing absent nothing =>
    rw [fetch_of_none (same.trans absent) (nothing.imp_right payload.trans)]

/-- What is made has the content of a body that decodes. -/
theorem exists_source_of_isNew {answer : Answer} (h : (b.fetch target).1 = some answer)
    (new : answer.isNew = true) :
    ∃ source stored plain, b.get? source = some stored ∧ source.decode stored = .ok plain ∧
      target.decode answer.body = .ok plain := by
  obtain ⟨plain, hp, hd⟩ := (Enriches.refl b).decode_of_isNew h new
  obtain ⟨source, -, content⟩ := List.exists_of_findSome?_eq_some hp
  obtain ⟨stored, hs, decodes⟩ := content?_eq_some_iff.1 content
  exact ⟨source, stored, plain, hs, decodes, hd⟩

end Bodies

namespace Shelf

/-- **Damage is never taken for a complete body.** Every byte string has a coded body in each of the
compressed codings, and whatever damage leaves of it is broken: it was cut short, be it to nothing,
or its checksum was changed. Where a representation has such a body, any other body is asked for as
if the damaged one were not there; and one that is made has the content of a body in another coding
that does decode. -/
theorem damaged_never_complete {coding : Coding} (hc : coding ∈ Coding.compressed) (plain : Bytes) :
    ∃ coded, coding.encode plain = .ok coded ∧
      ∀ damaged, Coding.Damaged coding coded damaged →
        coding.decode damaged = .error (.broken coding) ∧
        ∀ (shelf : Shelf) (s : Shared), (shelf.read s).bodies.get? coding = some damaged →
          ∀ target, target ≠ coding →
            (shelf.fetch s target).1 = (((shelf.read s).bodies.without coding).fetch target).1 ∧
            ∀ answer, (shelf.fetch s target).1 = some answer → answer.isNew = true →
              ∃ source, source ≠ coding ∧ ∃ stored content,
                (shelf.read s).bodies.get? source = some stored ∧
                source.decode stored = .ok content ∧ target.decode answer.body = .ok content := by
  have real : coding.isReal = true := by
    revert hc
    cases coding <;> decide
  obtain ⟨coded, he⟩ := Coding.exists_encode real plain
  refine ⟨coded, he, fun damaged damage => ?_⟩
  have broken := Coding.decode_damaged hc he damage
  refine ⟨broken, fun shelf s there target other => ⟨?_, fun answer ha new => ?_⟩⟩
  · rw [fst_fetch]
    exact (Bodies.fetch_without there broken other).symm
  · rw [fst_fetch] at ha
    obtain ⟨source, stored, content, hs, decodes, made⟩ := Bodies.exists_source_of_isNew ha new
    refine ⟨source, ?_, stored, content, hs, decodes, made⟩
    -- The damaged body does not decode.
    rintro rfl
    obtain rfl : damaged = stored := Option.some.inj (there.symm.trans hs)
    rw [broken] at decodes
    cases decodes

/-- The gzip member of "hi" up to its checksum. -/
def hiBlocks : Bytes := [0x1f, 0x8b, 8, 0, 0, 0, 0, 0, 0, 0xff, 1, 2, 0, 0xfd, 0xff, 0x68, 0x69]

/-- A page with the member of "hi" in gzip, the checksum of which is missing, and "ho" in Brotli. -/
def checksumLost : Shelf where
  bodies := #[(Bodies.empty.insert .gzip hiBlocks).insert .brotli
    [0x6b, 0, 0x08, 0, 0x08, 0x68, 0x6f, 3]]
  conversions := []

/-- The missing checksum is noticed, and a changed bit of it too; the plain page is made from
Brotli. -/
theorem damaged_never_complete_gzip :
    Coding.gzip ∈ Coding.compressed ∧
    Coding.gzip.encode [0x68, 0x69] = .ok (hiBlocks ++ [0xac, 0x2a, 0x93, 0xd8, 2, 0, 0, 0]) ∧
    Coding.gzip.decode (hiBlocks ++ [0xac, 0x2a, 0x93, 0xd9, 2, 0, 0, 0]) =
      .error (.broken .gzip) ∧
    Coding.gzip.decode hiBlocks = .error (.broken .gzip) ∧
    (checksumLost.fetch ⟨.untilDate (.ofSeconds 60), 0⟩ .identity).1.map (·.body) =
      some [0x68, 0x6f] ∧
    ∀ answer, (checksumLost.fetch ⟨.untilDate (.ofSeconds 60), 0⟩ .identity).1 = some answer →
      answer.isNew = true → ∃ source, source ≠ Coding.gzip ∧ ∃ stored content,
        source.decode stored = .ok content ∧ Coding.identity.decode answer.body = .ok content := by
  have hc : Coding.gzip ∈ Coding.compressed := by decide
  have written : Coding.gzip.encode [0x68, 0x69] =
      .ok (hiBlocks ++ [0xac, 0x2a, 0x93, 0xd8, 2, 0, 0, 0]) :=
    Coding.encode_eq_ok_iff.2 ⟨_, rfl, by decide +kernel⟩
  obtain ⟨coded, he, damaged⟩ := damaged_never_complete hc [0x68, 0x69]
  obtain rfl := Except.ok.inj (written.symm.trans he)
  obtain ⟨changed, -⟩ := damaged (hiBlocks ++ [0xac, 0x2a, 0x93, 0xd9, 2, 0, 0, 0])
    (.altered rfl rfl rfl (by decide))
  obtain ⟨cut, skipped⟩ := damaged hiBlocks (.cut (List.prefix_append _ _) (by decide))
  refine ⟨hc, written, changed, cut, by decide +kernel, fun answer ha new => ?_⟩
  obtain ⟨-, made⟩ := skipped checksumLost ⟨.untilDate (.ofSeconds 60), 0⟩ rfl .identity (by decide)
  obtain ⟨source, other, stored, content, -, decodes, result⟩ := made answer ha new
  exact ⟨source, other, stored, content, decodes, result⟩

end Shelf
end VariantCache
