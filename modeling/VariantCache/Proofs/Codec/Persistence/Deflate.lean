import VariantCache.Codec.Gzip
import VariantCache.Codec.Zlib
import VariantCache.Proofs.Codec.Persistence.Basic

/-!
# Deflate, zlib and gzip decoders do not look ahead

The three kinds of blocks are read from the front (`Deflate.persists_blockBody`), so a deflate
stream is, however many blocks it has (`Deflate.persists_decode`), and so are the header before it
and the checksums after it (`Zlib.persists_decode`, `Gzip.persists_decode`).
-/

namespace VariantCache.Codec

open BitDecoder

/-! ### Deflate -/

namespace Deflate

theorem persists_extended (codes : List (Nat × Nat)) (symbol : Nat) :
    Persists (extended codes symbol) (extended codes symbol) :=
  (persists_ofOption _).bind fun _ => (persists_bits _).bind fun _ => persists_pure _

theorem persists_lengths (code : PrefixCode) (wanted fuel : Nat) (read : List Nat) :
    Persists (lengths code wanted fuel read) (lengths code wanted fuel read) := by
  induction fuel generalizing read with
  | zero => exact persists_malformed
  | succ fuel ih =>
    refine (persists_pure _).ite (code.persists_read.bind fun symbol => ?_)
    have go_on (run : List Nat) := (persists_require (read.length + run.length ≤ wanted)).bind
      fun _ => ih (run ++ read)
    refine ((persists_pure _).bind go_on).ite (.ite ?_ (.ite ?_ ?_))
    · exact (persists_ofOption _).bind fun _ => (persists_bits 2).bind fun _ =>
        (persists_pure _).bind go_on
    · exact (persists_bits 3).bind fun _ => (persists_pure _).bind go_on
    · exact (persists_bits 7).bind fun _ => (persists_pure _).bind go_on

theorem persists_describedCodes : Persists describedCodes describedCodes := by
  refine (persists_bits 5).bind fun _ => (persists_bits 5).bind fun _ => ?_
  refine (persists_bits 4).bind fun _ => (persists_require _).bind fun _ => ?_
  refine (persists_replicate (persists_bits 3) _).bind fun _ => ?_
  refine (persists_ofOption _).bind fun _ => (persists_lengths _ _ _ _).bind fun _ => ?_
  exact (persists_ofOption _).bind fun _ => (persists_ofOption _).bind fun _ => persists_pure _

theorem persists_symbols (codes : Codes) {fuel larger : Nat} (le : fuel ≤ larger) (out : Output) :
    Persists (symbols codes fuel out) (symbols codes larger out) := by
  induction fuel generalizing larger out with
  | zero => exact persists_malformed
  | succ fuel ih =>
    obtain ⟨larger, rfl⟩ := Nat.exists_eq_add_of_le' (Nat.le_trans (Nat.le_add_left 1 _) le)
    have le := Nat.le_of_succ_le_succ le
    refine codes.literals.persists_read.bind fun symbol => ?_
    refine (ih le _).ite ((persists_pure _).ite ?_)
    refine (persists_extended _ _).bind fun _ => codes.distances.persists_read.bind fun _ => ?_
    exact (persists_extended _ _).bind fun _ => (persists_ofOption _).bind fun _ => ih le _

theorem persists_storedBlock (out : Output) : Persists (storedBlock out) (storedBlock out) := by
  refine persists_skipToByte.bind fun _ => (persists_littleEndian 2).bind fun _ => ?_
  refine (persists_littleEndian 2).bind fun _ => (persists_require _).bind fun _ => ?_
  exact (persists_bytes _).bind fun _ => persists_pure _

theorem persists_blockBody (kind : Nat) (out : Output) :
    Persists (blockBody kind out) (blockBody kind out) := by
  unfold blockBody
  split
  · exact persists_storedBlock out
  · exact (persists_ofOption _).bind fun codes =>
      .remaining fun _ _ le => persists_symbols codes le out
  · exact persists_describedCodes.bind fun codes =>
      .remaining fun _ _ le => persists_symbols codes le out
  · exact persists_malformed

theorem persists_blocks {fuel larger : Nat} (le : fuel ≤ larger) (out : Output) :
    Persists (blocks fuel out) (blocks larger out) := by
  induction fuel generalizing larger out with
  | zero => exact persists_malformed
  | succ fuel ih =>
    obtain ⟨larger, rfl⟩ := Nat.exists_eq_add_of_le' (Nat.le_trans (Nat.le_add_left 1 _) le)
    refine persists_bit.bind fun last => (persists_bits 2).bind fun kind => ?_
    refine (persists_blockBody kind out).bind fun out => ?_
    exact (persists_pure out).ite (ih (Nat.le_of_succ_le_succ le) out)

/-- **Deflate** streams end by themselves. -/
theorem persists_decode : Persists decode decode :=
  .remaining fun _ _ le => persists_blocks le #[]

end Deflate

/-! ### zlib -/

/-- **zlib** streams end by themselves. -/
theorem Zlib.persists_decode : Persists decode decode := by
  refine (persists_littleEndian 1).bind fun _ => (persists_littleEndian 1).bind fun _ => ?_
  refine (persists_require _).bind fun _ => Deflate.persists_decode.bind fun _ => ?_
  refine persists_skipToByte.bind fun _ => (persists_bigEndian 4).bind fun _ => ?_
  exact (persists_require _).bind fun _ => persists_pure _

/-! ### gzip -/

namespace Gzip

theorem persists_terminated (fuel : Nat) : Persists (terminated fuel) (terminated fuel) := by
  induction fuel with
  | zero => exact persists_malformed
  | succ fuel ih =>
    refine (persists_bytes 1).bind fun _ => (persists_pure _).ite ?_
    exact ih.bind fun _ => persists_pure _

theorem persists_optionalFields (flags : Nat) :
    Persists (optionalFields flags) (optionalFields flags) := by
  have field {c : Prop} [Decidable c] {next : Bytes → BitDecoder Bytes}
      (h : ∀ field, Persists (next field) (next field)) :
      Persists (if c then terminated (fieldLimit + 1) >>= next else pure [] >>= next)
        (if c then terminated (fieldLimit + 1) >>= next else pure [] >>= next) :=
    ((persists_terminated _).bind h).ite ((persists_pure _).bind h)
  have fields (extra : Bytes) := field (c := flags.testBit 3) fun name =>
    field (c := flags.testBit 4) fun comment => persists_pure (extra ++ name ++ comment)
  refine .ite ?_ ((persists_pure _).bind fields)
  exact (persists_bytes 2).bind fun _ => (persists_bytes _).bind fun _ =>
    (persists_pure _).bind fields

theorem persists_readHeader : Persists readHeader readHeader := by
  refine (persists_bytes 10).bind fun _ => (persists_require _).bind fun _ => ?_
  refine (persists_optionalFields _).bind fun _ => .ite ?_ (persists_pure _)
  exact (persists_littleEndian 2).bind fun _ => persists_require _

/-- **gzip** members end by themselves. -/
theorem persists_decode : Persists decode decode := by
  refine persists_readHeader.bind fun _ => Deflate.persists_decode.bind fun _ => ?_
  refine persists_skipToByte.bind fun _ => (persists_littleEndian 4).bind fun _ => ?_
  refine (persists_require _).bind fun _ => (persists_littleEndian 4).bind fun _ => ?_
  exact (persists_require _).bind fun _ => persists_pure _

end Gzip
end VariantCache.Codec
