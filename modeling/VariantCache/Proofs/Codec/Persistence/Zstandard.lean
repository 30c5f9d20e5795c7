import VariantCache.Codec.Zstandard.Frame
import VariantCache.Proofs.Codec.Persistence.Basic

/-!
# Zstandard decoders do not look ahead inside a frame

A frame ends by itself (`persists_frame`): what is in a compressed block is taken out of the stream
as a whole before anything is made of it. A stream of frames does not, since it goes on to the end
of what is there; but there is none without a first frame (`decode_eq_none`).
-/

namespace VariantCache.Codec.Zstandard

open BitDecoder

theorem persists_readHeader : Persists readHeader readHeader := by
  refine (persists_bits 2).bind fun _ => persists_bit.bind fun _ => ?_
  refine persists_bit.bind fun _ => (persists_require _).bind fun _ => ?_
  refine persists_bit.bind fun _ => persists_bit.bind fun single => ?_
  refine (persists_bits 2).bind fun sizeFlag => ?_
  suffices go_on : ∀ window : Nat, Persists _ _ from
    ((persists_pure 0).bind go_on).ite ((persists_bits 3).bind fun _ => (persists_bits 5).bind
      fun _ => (persists_pure _).bind go_on)
  intro window
  refine (persists_littleEndian _).bind fun _ => (persists_require _).bind fun _ => ?_
  have close (ok : Option Nat → Bool) (header : Option Nat → Header) (contentSize : Option Nat) :
      Persists (require (ok contentSize) >>= fun _ => pure (header contentSize))
        (require (ok contentSize) >>= fun _ => pure (header contentSize)) :=
    (persists_require _).bind fun _ => persists_pure _
  match sizeFlag with
  | 0 =>
    exact .ite ((persists_littleEndian 1).bind fun _ => (persists_pure _).bind (close _ _))
      ((persists_pure _).bind (close _ _))
  | 1 => exact (persists_littleEndian 2).bind fun _ => (persists_pure _).bind (close _ _)
  | 2 => exact (persists_littleEndian 4).bind fun _ => (persists_pure _).bind (close _ _)
  | _ + 3 => exact (persists_littleEndian 8).bind fun _ => (persists_pure _).bind (close _ _)

theorem persists_blockBody (limit kind size : Nat) (carry : Carry) :
    Persists (blockBody limit kind size carry) (blockBody limit kind size carry) := by
  refine (persists_require _).bind fun _ => ?_
  split
  · exact (persists_bytes _).bind fun _ => persists_pure _
  · exact (persists_bytes 1).bind fun _ => persists_pure _
  · exact (persists_bytes _).bind fun _ => persists_ofOption _
  · exact persists_malformed

theorem persists_blocks (limit : Nat) {fuel larger : Nat} (le : fuel ≤ larger) (carry : Carry) :
    Persists (blocks limit fuel carry) (blocks limit larger carry) := by
  induction fuel generalizing larger carry with
  | zero => exact persists_malformed
  | succ fuel ih =>
    obtain ⟨larger, rfl⟩ := Nat.exists_eq_add_of_le' (Nat.le_trans (Nat.le_add_left 1 _) le)
    refine persists_bit.bind fun last => (persists_bits 2).bind fun kind => ?_
    refine (persists_bits 21).bind fun size => (persists_blockBody _ _ _ _).bind fun carry => ?_
    exact (persists_pure _).ite (ih (Nat.le_of_succ_le_succ le) carry)

theorem persists_frameBody : Persists frameBody frameBody := by
  refine persists_readHeader.bind fun header => ?_
  refine .remaining fun _ _ le => (persists_blocks _ le _).bind fun out => ?_
  refine (persists_require _).bind fun _ => .ite ?_ (persists_pure _)
  exact (persists_littleEndian 4).bind fun _ => (persists_require _).bind fun _ => persists_pure _

/-- **Frames** end by themselves. -/
theorem persists_frame : Persists frame frame := by
  refine (persists_littleEndian 4).bind fun number => persists_frameBody.ite ?_
  refine (persists_require _).bind fun _ => (persists_littleEndian 4).bind fun _ => ?_
  exact (persists_bytes _).bind fun _ => persists_pure _

/-- A stream begins with a frame. -/
theorem decode_eq_none {s : BitSource} (h : frame s = none) : decode s = none := by
  refine Option.eq_none_iff_forall_ne_some.2 fun result hd => ?_
  have reads : Reads decode s result.1 result.2 := hd
  have reads := reads.after (reads_remaining s)
  cases hf : s.size with
  | zero =>
    rw [hf] at reads
    cases reads
  | succ fuel =>
    rw [hf] at reads
    obtain ⟨_, _, first, _⟩ := reads.exists_of_bind
    cases h.symm.trans first

end VariantCache.Codec.Zstandard
