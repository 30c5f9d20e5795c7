import VariantCache.Proofs.Coding.RoundTrip

/-!
# Whole bodies or failures

A sink that has room for so many bytes takes pieces as it would take them in one: what there is
room for, and it has taken them all when they fit together (`Sink.writeAll_limited`). So
converting a body into such a sink succeeds exactly when there is a result and the sink has room for it
(`encodeTo_limited`, `decodeTo_limited`), however the result is cut into pieces: a header, blocks,
and a trailer behind the last byte of the body. **`success_iff_delivered`** says all of it.
-/

namespace VariantCache

namespace Sink

variable {pieces : List Bytes} {written : Bytes} {room : Nat}

/-- Of several pieces a sink takes what it would take of one. -/
theorem writeAll_limited (pieces : List Bytes) (written : Bytes) (room : Nat) :
    writeAll ⟨written, some room⟩ pieces =
      (decide (pieces.flatten.length ≤ room),
        ⟨written ++ pieces.flatten.take room, some (room - pieces.flatten.length)⟩) := by
  induction pieces generalizing written room with
  | nil => simp [writeAll]
  | cons piece rest ih =>
    rw [List.flatten_cons, List.length_append]
    by_cases fits : piece.length ≤ room
    · have taken : write ⟨written, some room⟩ piece =
          (true, ⟨written ++ piece, some (room - piece.length)⟩) := by
        simp [write, fits, List.take_of_length_le fits]
      have same : rest.flatten.length ≤ room - piece.length ↔
          piece.length + rest.flatten.length ≤ room := by omega
      have left : room - piece.length - rest.flatten.length =
          room - (piece.length + rest.flatten.length) := by omega
      simp only [writeAll, taken, ih, same, left, List.append_assoc, List.take_append,
        List.take_of_length_le fits]
    · -- Nothing of the pieces behind this one is taken, and no room is left.
      have refused : write ⟨written, some room⟩ piece =
          (false, ⟨written ++ piece.take room, some (room - piece.length)⟩) := by
        simp [write, fits]
      have tooLong : ¬ piece.length + rest.flatten.length ≤ room := by omega
      have full : room - piece.length = 0 := by omega
      have full' : room - (piece.length + rest.flatten.length) = 0 := by omega
      simp only [writeAll, refused, decide_eq_false tooLong, List.take_append, full, full',
        List.take_zero, List.append_nil]

end Sink

namespace Coding

variable {coding : Coding} {input written : Bytes} {n : Nat}

/-! ### The outcome -/

/-- What comes of converting a body into a sink with room for `n` bytes, by what comes of converting
it alone: a result has to fit. -/
def outcome (coding : Coding) (n : Nat) : Except Failure Bytes → Except Failure Unit
  | .ok out => if out.length ≤ n then .ok () else .error (.broken coding)
  | .error failure => .error failure

theorem outcome_eq_ok_iff {result : Except Failure Bytes} :
    coding.outcome n result = .ok () ↔ ∃ out, result = .ok out ∧ out.length ≤ n := by
  cases result with
  | error failure => simp [outcome]
  | ok out => simp [outcome]

theorem deliver_limited (coding : Coding) (pieces : List Bytes) (written : Bytes) (n : Nat) :
    coding.deliver pieces ⟨written, some n⟩ =
      (coding.outcome n (.ok pieces.flatten),
        ⟨written ++ pieces.flatten.take n, some (n - pieces.flatten.length)⟩) := by
  unfold deliver outcome
  rw [Sink.writeAll_limited]
  by_cases fits : pieces.flatten.length ≤ n
  · simp only [decide_eq_true fits, if_pos fits]
  · simp only [decide_eq_false fits, if_neg fits]

/-- What is delivered to a sink with enough room is all there. -/
theorem written_deliver {pieces : List Bytes}
    (h : (coding.deliver pieces ⟨written, some n⟩).1 = .ok ()) :
    (coding.deliver pieces ⟨written, some n⟩).2.written = written ++ pieces.flatten := by
  simp only [deliver_limited] at h ⊢
  obtain ⟨out, same, fits⟩ := outcome_eq_ok_iff.1 h
  cases same
  simp only [List.take_of_length_le fits]

/-- A coding that is not real has no codec. -/
theorem pieces?_eq_none_iff : coding.pieces? input = none ↔ coding.isReal = false := by
  cases coding <;> simp [pieces?, isReal]

theorem encode_of_not_real (unreal : coding.isReal = false) :
    coding.encode input = .error (.notSupported coding) := by
  simp only [encode, encodeTo, pieces?_eq_none_iff.2 unreal, Except.map]

/-- Decoding in a real coding fails only on a malformed body. -/
theorem eq_broken_of_decode (real : coding.isReal = true) {failure : Failure}
    (h : coding.decode input = .error failure) : failure = .broken coding := by
  cases coding with
  | compress | unsupported => cases real
  | identity => cases h
  | brotli | deflate | gzip | zstandard =>
    simp only [decode] at h
    split at h
    · cases h
    · cases h
      rfl

/-! ### Conversion into a sink -/

theorem encodeTo_limited (coding : Coding) (input written : Bytes) (n : Nat) :
    (coding.encodeTo input ⟨written, some n⟩).1 = coding.outcome n (coding.encode input) := by
  unfold encodeTo
  cases h : coding.pieces? input with
  | none => simp only [encode_of_not_real (pieces?_eq_none_iff.1 h), outcome]
  | some pieces => simp only [deliver_limited, encode_eq_ok_iff.2 ⟨pieces, h, rfl⟩]

theorem decodeTo_limited (coding : Coding) (input written : Bytes) (n : Nat) :
    (coding.decodeTo input ⟨written, some n⟩).1 = coding.outcome n (coding.decode input) := by
  unfold decodeTo
  cases coding.decode input with
  | error failure => rfl
  | ok plain => simp only [deliver_limited, List.flatten_singleton]

/-- What was encoded into a sink with success is there. -/
theorem written_encodeTo (h : (coding.encodeTo input ⟨written, some n⟩).1 = .ok ()) :
    ∃ out, coding.encode input = .ok out ∧
      (coding.encodeTo input ⟨written, some n⟩).2.written = written ++ out := by
  unfold encodeTo at h ⊢
  cases hp : coding.pieces? input with
  | none =>
    rw [hp] at h
    cases h
  | some pieces =>
    rw [hp] at h
    exact ⟨pieces.flatten, encode_eq_ok_iff.2 ⟨pieces, hp, rfl⟩, written_deliver h⟩

/-- What was decoded into a sink with success is there. -/
theorem written_decodeTo (h : (coding.decodeTo input ⟨written, some n⟩).1 = .ok ()) :
    ∃ out, coding.decode input = .ok out ∧
      (coding.decodeTo input ⟨written, some n⟩).2.written = written ++ out := by
  unfold decodeTo at h ⊢
  cases hp : coding.decode input with
  | error failure =>
    rw [hp] at h
    cases h
  | ok plain =>
    rw [hp] at h
    refine ⟨plain, rfl, ?_⟩
    simpa only [List.flatten_singleton] using written_deliver h

/-- Encoding in a real coding fails only where the sink does. -/
theorem eq_broken_of_encodeTo (real : coding.isReal = true) {failure : Failure}
    (h : (coding.encodeTo input ⟨written, some n⟩).1 = .error failure) :
    failure = .broken coding := by
  obtain ⟨coded, encoded⟩ := exists_encode real input
  rw [encodeTo_limited, encoded, outcome] at h
  split at h
  · cases h
  · cases h
    rfl

theorem eq_broken_of_decodeTo (real : coding.isReal = true) {failure : Failure}
    (h : (coding.decodeTo input ⟨written, some n⟩).1 = .error failure) :
    failure = .broken coding := by
  rw [decodeTo_limited] at h
  cases decoded : coding.decode input with
  | error reason =>
    rw [decoded, outcome] at h
    cases h
    exact eq_broken_of_decode real decoded
  | ok plain =>
    rw [decoded, outcome] at h
    split at h
    · cases h
    · cases h
      rfl

/-- **Success means that the whole result was delivered.** Into a sink that takes `n` more bytes and
then fails, encoding succeeds exactly when the coding is real and the coded body has at most `n`
bytes, and decoding exactly when the body decodes to at most `n` bytes; then all of the result is in
the sink, behind what was there before. A coding that is not real is refused as such, and nothing
is written; every other failure names the coding as broken. -/
theorem success_iff_delivered (coding : Coding) (input written : Bytes) (n : Nat) :
    let encoded := coding.encodeTo input ⟨written, some n⟩
    let decoded := coding.decodeTo input ⟨written, some n⟩
    (encoded.1 = .ok () ↔
      coding.isReal = true ∧ ∃ out, coding.encode input = .ok out ∧ out.length ≤ n) ∧
    (decoded.1 = .ok () ↔ ∃ out, coding.decode input = .ok out ∧ out.length ≤ n) ∧
    (encoded.1 = .ok () →
      ∃ out, coding.encode input = .ok out ∧ encoded.2.written = written ++ out) ∧
    (decoded.1 = .ok () →
      ∃ out, coding.decode input = .ok out ∧ decoded.2.written = written ++ out) ∧
    (coding = compress ∨ coding = unsupported →
      encoded = (.error (.notSupported coding), ⟨written, some n⟩) ∧
      decoded = (.error (.notSupported coding), ⟨written, some n⟩)) ∧
    (coding ≠ compress ∧ coding ≠ unsupported → ∀ failure,
      encoded.1 = .error failure ∨ decoded.1 = .error failure → failure = .broken coding) := by
  intro encoded decoded
  have named : coding.isReal = true ↔ coding ≠ compress ∧ coding ≠ unsupported := by
    cases coding <;> decide
  refine ⟨?_, ?_, written_encodeTo, written_decodeTo, ?_, ?_⟩
  · rw [show encoded.1 = _ from encodeTo_limited coding input written n, outcome_eq_ok_iff]
    constructor
    · rintro ⟨out, made, fits⟩
      obtain ⟨pieces, hp, -⟩ := encode_eq_ok_iff.1 made
      have real : coding.isReal ≠ false := fun unreal =>
        Option.some_ne_none pieces (hp.symm.trans (pieces?_eq_none_iff.2 unreal))
      exact ⟨eq_true_of_ne_false real, out, made, fits⟩
    · rintro ⟨-, made⟩
      exact made
  · rw [show decoded.1 = _ from decodeTo_limited coding input written n, outcome_eq_ok_iff]
  · rintro (rfl | rfl)
    · exact ⟨rfl, rfl⟩
    · exact ⟨rfl, rfl⟩
  · rintro real failure (h | h)
    · exact eq_broken_of_encodeTo (named.2 real) h
    · exact eq_broken_of_decodeTo (named.2 real) h

/-- A gzip body of nothing has 23 bytes: a sink that lacks room for the last byte of its trailer
makes a failure of it. -/
example : (gzip.encodeTo [] (.limited 23)).1 = .ok () ∧
    (gzip.encodeTo [] (.limited 22)).1 = .error (.broken gzip) :=
  ⟨by cbv, by cbv⟩

end Coding
end VariantCache
