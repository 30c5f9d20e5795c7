import VariantCache.Codec.Brotli.Stream
import VariantCache.Proofs.Codec.Persistence.Basic

/-!
# Brotli decoders do not look ahead

Codes and context maps are read from the front, and so are the commands of a compressed meta-block
(`persists_commands`). A stream ends with the meta-block that is marked as the last
(`persists_decode`).
-/

namespace VariantCache.Codec.Brotli

open BitDecoder

/-! ### Codes -/

theorem persists_extended (table : List Extended) (symbol : Nat) :
    Persists (extended table symbol) (extended table symbol) :=
  (persists_ofOption _).bind fun _ => (persists_bits _).bind fun _ => persists_pure _

theorem persists_simpleCode (alphabet : Nat) :
    Persists (simpleCode alphabet) (simpleCode alphabet) := by
  refine (persists_bits 2).bind fun _ => (persists_replicate (persists_bits _) _).bind fun _ => ?_
  refine (persists_require _).bind fun _ => ?_
  split
  · exact persists_pure _
  · exact .ite (persists_bit.bind fun _ => persists_ofOption _)
      ((persists_pure _).bind fun _ => persists_ofOption _)

theorem persists_codeLengthLengths (symbols : List Nat) (space : Nat) :
    Persists (codeLengthLengths symbols space) (codeLengthLengths symbols space) := by
  induction symbols generalizing space with
  | nil => exact persists_pure _
  | cons symbol rest ih =>
    refine (persists_pure _).ite (codeLengthLength.persists_read.bind fun _ => ?_)
    exact (ih _).bind fun _ => (persists_require _).bind fun _ => persists_pure _

theorem persists_codeLengthCode (skipped : Nat) :
    Persists (codeLengthCode skipped) (codeLengthCode skipped) := by
  refine (persists_codeLengthLengths _ _).bind fun lengths => ?_
  dsimp only
  split
  · exact persists_pure _
  · exact (persists_ofOption _).bind fun _ => (persists_require _).bind fun _ => persists_pure _

theorem persists_step (run : LengthRun) (code : PrefixCode) (alphabet : Nat) :
    Persists (run.step code alphabet) (run.step code alphabet) := by
  refine code.persists_read.bind fun symbol => .ite ?_ ?_
  · exact (persists_ofOption _).bind fun _ => persists_pure _
  · exact (persists_bits _).bind fun _ => (persists_ofOption _).bind fun _ => persists_pure _

theorem persists_finish (code : PrefixCode) (alphabet fuel : Nat) (run : LengthRun) :
    Persists (LengthRun.finish code alphabet fuel run) (LengthRun.finish code alphabet fuel run) := by
  induction fuel generalizing run with
  | zero => exact persists_malformed
  | succ fuel ih =>
    exact (persists_pure _).ite (persists_malformed.ite
      ((persists_step run code alphabet).bind fun run => ih run))

theorem persists_prefixCode (alphabet : Nat) :
    Persists (prefixCode alphabet) (prefixCode alphabet) := by
  refine (persists_bits 2).bind fun skipped => (persists_simpleCode _).ite ?_
  refine (persists_codeLengthCode _).bind fun _ => (persists_finish _ _ _ _).bind fun _ => ?_
  exact persists_ofOption _

/-! ### Context maps -/

theorem persists_typeCount : Persists typeCount typeCount := by
  refine persists_bit.bind fun _ => .ite ?_ (persists_pure _)
  exact (persists_bits 3).bind fun _ => (persists_bits _).bind fun _ => persists_pure _

theorem persists_contextEntries (code : PrefixCode) (longest size fuel : Nat) (read : List Nat) :
    Persists (contextEntries code longest size fuel read)
      (contextEntries code longest size fuel read) := by
  induction fuel generalizing read with
  | zero => exact persists_malformed
  | succ fuel ih =>
    refine (persists_pure _).ite (code.persists_read.bind fun symbol => ?_)
    refine (ih _).ite (.ite ?_ (ih _))
    exact (persists_bits _).bind fun _ => (persists_require _).bind fun _ => ih _

theorem persists_contextMap (size : Nat) : Persists (contextMap size) (contextMap size) := by
  refine persists_typeCount.bind fun count => (persists_pure _).ite (persists_bit.bind fun _ => ?_)
  suffices go_on : ∀ longest : Nat, Persists _ _ from
    .ite ((persists_bits 4).bind fun _ => (persists_pure _).bind go_on)
      ((persists_pure _).bind go_on)
  intro longest
  refine (persists_prefixCode _).bind fun _ => (persists_contextEntries _ _ _ _ _).bind fun _ => ?_
  exact persists_bit.bind fun _ => persists_pure _

/-! ### Block types -/

theorem persists_start : Persists BlockState.start BlockState.start := by
  refine persists_typeCount.bind fun types => (persists_pure _).ite ?_
  refine (persists_prefixCode _).bind fun _ => (persists_prefixCode _).bind fun countCode => ?_
  exact countCode.persists_read.bind fun _ => (persists_extended _ _).bind fun _ => persists_pure _

theorem persists_next (state : BlockState) : Persists state.next state.next := by
  refine (persists_pure _).ite ((persists_ofOption _).bind fun codes => ?_)
  refine codes.types.persists_read.bind fun _ => codes.counts.persists_read.bind fun _ => ?_
  exact (persists_extended _ _).bind fun _ => persists_pure _

/-! ### Compressed meta-blocks -/

theorem persists_readSetup : Persists readSetup readSetup := by
  refine persists_start.bind fun literalBlocks => persists_start.bind fun commandBlocks => ?_
  refine persists_start.bind fun distanceBlocks => (persists_bits 2).bind fun _ => ?_
  refine (persists_bits 4).bind fun _ => (persists_replicate (persists_bits 2) _).bind fun _ => ?_
  refine (persists_contextMap _).bind fun _ => (persists_contextMap _).bind fun _ => ?_
  refine (persists_replicate (persists_prefixCode _) _).bind fun _ => ?_
  refine (persists_replicate (persists_prefixCode _) _).bind fun _ => ?_
  exact (persists_replicate (persists_prefixCode _) _).bind fun _ => persists_pure _

theorem persists_insert (setup : Setup) (count : Nat) (state : BlockState) (out : Output) :
    Persists (insert setup count state out) (insert setup count state out) := by
  induction count generalizing state out with
  | zero => exact persists_pure _
  | succ count ih =>
    refine (persists_next state).bind fun _ => (persists_ofOption _).bind fun _ => ?_
    refine (persists_ofOption _).bind fun _ => (persists_ofOption _).bind fun code => ?_
    exact code.persists_read.bind fun _ => ih _ _

theorem persists_distanceOf (setup : Setup) (recent : Recent) (symbol : Nat) :
    Persists (distanceOf setup recent symbol) (distanceOf setup recent symbol) :=
  (persists_pure _).ite ((persists_pure _).ite ((persists_bits _).bind fun _ => persists_pure _))

theorem persists_readDistance (setup : Setup) (state : BlockState) (recent : Recent) (again : Bool)
    (length : Nat) :
    Persists (readDistance setup state recent again length)
      (readDistance setup state recent again length) := by
  refine (persists_pure _).ite ((persists_next state).bind fun _ => ?_)
  refine (persists_ofOption _).bind fun _ => (persists_ofOption _).bind fun code => ?_
  exact code.persists_read.bind fun _ => (persists_distanceOf _ _ _).bind fun _ => persists_pure _

theorem persists_commands (setup : Setup) (window fuel left : Nat) (state : Blocks)
    (recent : Recent) (out : Output) :
    Persists (commands setup window fuel left state recent out)
      (commands setup window fuel left state recent out) := by
  induction fuel generalizing left state recent out with
  | zero =>
    cases left with
    | zero => exact persists_pure _
    | succ left => exact persists_malformed
  | succ fuel ih =>
    cases left with
    | zero => exact persists_pure _
    | succ left =>
      refine (persists_next _).bind fun _ => (persists_ofOption _).bind fun code => ?_
      refine code.persists_read.bind fun _ => (persists_ofOption _).bind fun _ => ?_
      refine (persists_ofOption _).bind fun _ => (persists_ofOption _).bind fun _ => ?_
      refine (persists_bits _).bind fun _ => (persists_bits _).bind fun _ => ?_
      refine (persists_require _).bind fun _ => (persists_insert _ _ _ _).bind fun _ => ?_
      refine (persists_pure _).ite ((persists_readDistance _ _ _ _ _).bind fun _ => ?_)
      refine (persists_require _).bind fun _ => (persists_ofOption _).bind fun _ => ?_
      exact ih _ _ _ _

/-! ### Streams -/

theorem persists_windowBits : Persists windowBits windowBits := by
  refine persists_bit.bind fun _ => (persists_pure _).ite ((persists_bits 3).bind fun _ => ?_)
  refine (persists_pure _).ite ((persists_bits 3).bind fun _ => (persists_pure _).ite ?_)
  exact (persists_require _).bind fun _ => persists_pure _

theorem persists_skipped : Persists skipped skipped := by
  refine persists_bit.bind fun _ => (persists_require _).bind fun _ => ?_
  refine (persists_bits 2).bind fun _ => (persists_bits _).bind fun _ => ?_
  refine (persists_require _).bind fun _ => persists_zerosToByte.bind fun _ => ?_
  exact (persists_bytes _).bind fun _ => persists_pure _

theorem persists_metaBlocks (window : Nat) {fuel larger : Nat} (le : fuel ≤ larger)
    (recent : Recent) (out : Output) :
    Persists (metaBlocks window fuel recent out) (metaBlocks window larger recent out) := by
  induction fuel generalizing larger recent out with
  | zero => exact persists_malformed
  | succ fuel ih =>
    obtain ⟨larger, rfl⟩ := Nat.exists_eq_add_of_le' (Nat.le_trans (Nat.le_add_left 1 _) le)
    have le := Nat.le_of_succ_le_succ le
    refine persists_bit.bind fun last => ?_
    suffices go_on : ∀ empty : Bool, Persists _ _ from
      (persists_bit.bind go_on).ite ((persists_pure false).bind go_on)
    intro empty
    refine (persists_zerosToByte.bind fun _ => persists_pure _).ite ?_
    refine (persists_bits 2).bind fun nibbles => ?_
    have go_on (done : Recent × Output) :
        Persists (if last then zerosToByte >>= fun _ => pure done.2
            else metaBlocks window fuel done.1 done.2)
          (if last then zerosToByte >>= fun _ => pure done.2
            else metaBlocks window larger done.1 done.2) :=
      (persists_zerosToByte.bind fun _ => persists_pure _).ite (ih le done.1 done.2)
    refine (persists_skipped.bind fun _ => (persists_pure _).bind go_on).ite ?_
    refine (persists_bits _).bind fun length => (persists_require _).bind fun _ => ?_
    suffices hold : ∀ stored : Bool, Persists _ _ from
      ((persists_pure false).bind hold).ite (persists_bit.bind hold)
    intro stored
    refine .ite ?_ (persists_readSetup.bind fun setup => ?_)
    · exact persists_zerosToByte.bind fun _ => (persists_bytes _).bind fun _ =>
        (persists_pure _).bind go_on
    · exact (persists_commands _ _ _ _ _ _ _).bind go_on

/-- **Brotli** streams end by themselves. -/
theorem persists_decode : Persists decode decode := by
  refine persists_windowBits.bind fun _ => .remaining fun _ _ le => ?_
  exact (persists_metaBlocks _ le _ _).bind fun _ => persists_pure _

end VariantCache.Codec.Brotli
