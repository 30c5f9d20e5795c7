import VariantCache.Codec.PrefixCode
import VariantCache.Proofs.Codec.Reading

/-!
# Decoders do not look ahead

`Persists d e` says that what `d` reads off a source, `e` reads off every longer source, where it
leaves what was added. A decoder that persists itself decides by what it reads and not by what
follows, so it reads nothing off a stream that was cut short: it would leave the rest of the
whole stream behind (`Persists.eq_none_of_cut`). The relation is between two decoders because a
loop has fuel for all that remains, and more remains of a longer source (`Persists.remaining`).
-/

namespace VariantCache.Codec

/-- The source with more bytes behind it. -/
def BitSource.followedBy (s : BitSource) (more : Bytes) : BitSource := ⟨s.pending, s.bytes ++ more⟩

variable {α β : Type}

/-- What the first decoder reads off a source, the second one reads off every longer source, and
leaves what was added. -/
def Persists (d e : BitDecoder α) : Prop :=
  ∀ ⦃s value rest⦄, Reads d s value rest → ∀ more, Reads e (s.followedBy more) value (rest.followedBy more)

theorem persists_pure (a : α) : Persists (pure a) (pure a) := by
  rintro s value rest ⟨⟩ more
  rfl

theorem Persists.bind {d e : BitDecoder α} {f g : α → BitDecoder β} (first : Persists d e)
    (next : ∀ a, Persists (f a) (g a)) : Persists (d >>= f) (e >>= g) := by
  intro s value rest h more
  obtain ⟨a, s', hd, hf⟩ := h.exists_of_bind
  exact (first hd more).bind (next a hf more)

theorem Persists.ite {c : Prop} [Decidable c] {d d' e e' : BitDecoder α} (yes : Persists d e)
    (no : Persists d' e') : Persists (if c then d else d') (if c then e else e') := by
  split
  · exact yes
  · exact no

/-- A loop with fuel for all that remains has more fuel where more remains. -/
theorem Persists.remaining {f g : Nat → BitDecoder α}
    (h : ∀ fuel larger, fuel ≤ larger → Persists (f fuel) (g larger)) :
    Persists (BitDecoder.remaining >>= f) (BitDecoder.remaining >>= g) := by
  intro s value rest hf more
  have longer : s.size ≤ (s.followedBy more).size := by
    simp only [BitSource.size, BitSource.followedBy, List.length_append]
    omega
  exact h s.size _ longer hf more

/-- **A stream that was cut short is not read** by a decoder that reads the whole of it. -/
theorem Persists.eq_none_of_cut {d : BitDecoder α} (h : Persists d d) {front back : Bytes}
    {value : α} (whole : Reads d ⟨[], front ++ back⟩ value ⟨[], []⟩) (more : back ≠ []) :
    d ⟨[], front⟩ = none := by
  cases hd : d ⟨[], front⟩ with
  | none => rfl
  | some result =>
    have longer : Reads d ⟨[], front ++ back⟩ result.1 (result.2.followedBy back) := h hd back
    have left : result.2.followedBy back = ⟨[], []⟩ :=
      (Prod.mk.inj (Option.some.inj (longer.symm.trans whole))).2
    exact absurd (List.append_eq_nil_iff.1 (BitSource.mk.inj left).2).2 more

namespace BitDecoder

theorem persists_malformed {e : BitDecoder α} : Persists malformed e := by
  intro s value rest h
  cases h

theorem persists_require (ok : Bool) : Persists (require ok) (require ok) := by
  cases ok with
  | true => exact persists_pure ()
  | false => exact persists_malformed

theorem persists_ofOption (value : Option α) : Persists (ofOption value) (ofOption value) := by
  cases value with
  | none => exact persists_malformed
  | some a => exact persists_pure a

/-! ### Bits and bytes -/

theorem persists_bit : Persists bit bit := by
  intro s value rest h more
  match s, h with
  | ⟨_ :: _, _⟩, h =>
    obtain ⟨rfl, rfl⟩ := Prod.mk.inj (Option.some.inj h)
    rfl
  | ⟨[], _ :: _⟩, h =>
    obtain ⟨rfl, rfl⟩ := Prod.mk.inj (Option.some.inj h)
    rfl

theorem persists_bits (n : Nat) : Persists (bits n) (bits n) := by
  induction n with
  | zero => exact persists_pure 0
  | succ n ih => exact persists_bit.bind fun low => ih.bind fun high => persists_pure _

theorem persists_skipToByte : Persists skipToByte skipToByte := by
  rintro s value rest ⟨⟩ more
  rfl

theorem persists_zerosToByte : Persists zerosToByte zerosToByte := by
  intro s value rest h more
  unfold Reads zerosToByte at *
  split at h
  · cases h
  · next zeros =>
    obtain ⟨rfl, rfl⟩ := Prod.mk.inj (Option.some.inj h)
    exact if_neg zeros

theorem persists_bytes (n : Nat) : Persists (bytes n) (bytes n) := by
  intro s value rest h more
  obtain ⟨⟨taken, left⟩, cut, same⟩ := Option.bind_eq_some_iff.1 h
  obtain ⟨rfl, rfl⟩ := Prod.mk.inj (Option.some.inj same)
  unfold Bytes.splitAt? at cut
  split at cut
  · next enough =>
    obtain ⟨rfl, rfl⟩ := Prod.mk.inj (Option.some.inj cut)
    have h := reads_bytes (List.length_take_of_le enough) s.pending (s.bytes.drop n ++ more)
    rw [← List.append_assoc, List.take_append_drop] at h
    exact h
  · cases cut

theorem persists_littleEndian (n : Nat) : Persists (littleEndian n) (littleEndian n) :=
  (persists_bytes n).bind fun _ => persists_pure _

theorem persists_bigEndian (n : Nat) : Persists (bigEndian n) (bigEndian n) :=
  (persists_bytes n).bind fun _ => persists_pure _

theorem persists_replicate {d e : BitDecoder α} (h : Persists d e) (n : Nat) :
    Persists (replicate d n) (replicate e n) := by
  induction n with
  | zero => exact persists_pure []
  | succ n ih => exact h.bind fun first => ih.bind fun rest => persists_pure _

end BitDecoder

/-- A symbol is read bit by bit. -/
theorem PrefixCode.persists_read (code : PrefixCode) : Persists code.read code.read := by
  induction code with
  | unused => exact BitDecoder.persists_malformed
  | symbol value => exact persists_pure value
  | branch zero one zero_ih one_ih =>
    exact BitDecoder.persists_bit.bind fun _ => one_ih.ite zero_ih

end VariantCache.Codec
