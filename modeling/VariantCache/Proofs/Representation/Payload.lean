import VariantCache.Representation.Basic
import VariantCache.Proofs.Coding.RoundTrip

/-!
# One payload in many codings

The bodies of a representation carry a payload when there is one at least, and each of
them decodes to the payload (`Bodies.Carry`). A body that decodes can be converted to
every real coding and decodes to the same then (`Coding.exists_convert`), so whoever asks
for a real coding is answered with the payload, and the body that is kept carries it too
(`Bodies.Carry.fetch`).
-/

namespace VariantCache

/-! ### Conversion -/

namespace Coding

variable {source target coding : Coding} {body converted plain : Bytes}

theorem isReal_of_decode (h : coding.decode body = .ok plain) : coding.isReal = true := by
  cases coding with
  | compress | unsupported => cases h
  | identity | brotli | deflate | gzip | zstandard => rfl

/-- Stored bodies in every real coding are tried as a source. -/
theorem mem_sourceOrder (real : coding.isReal = true) : coding ∈ sourceOrder := by
  cases coding with
  | compress | unsupported => cases real
  | identity | brotli | deflate | gzip | zstandard => decide

/-- **A body that decodes can be converted to every real coding.** -/
theorem exists_convert (h : source.decode body = .ok plain) (real : target.isReal = true) :
    ∃ converted, source.convert target body = .ok converted := by
  unfold convert
  by_cases same : source = target
  · exact ⟨body, by rw [if_pos same]; rfl⟩
  · rw [if_neg same, h]
    by_cases plainly : target = identity
    · exact ⟨plain, by simp only [if_pos plainly]; rfl⟩
    · obtain ⟨coded, he⟩ := exists_encode real plain
      exact ⟨coded, by simp only [bind, Except.bind, if_neg plainly]; exact he⟩

/-- A converted body decodes to the same as the one it was made from. -/
theorem decode_of_convert (h : source.decode body = .ok plain)
    (hc : source.convert target body = .ok converted) : target.decode converted = .ok plain := by
  unfold convert at hc
  by_cases same : source = target
  · rw [if_pos same] at hc
    obtain rfl := Except.ok.inj hc
    rw [← same, h]
  · rw [if_neg same, h] at hc
    by_cases plainly : target = identity
    · simp only [if_pos plainly] at hc
      obtain rfl := Except.ok.inj hc
      rw [plainly]
      rfl
    · simp only [bind, Except.bind, if_neg plainly] at hc
      exact decode_encode hc

end Coding

/-! ### Bodies -/

namespace Bodies

/-- There is a body, and every body decodes to the payload. -/
structure Carry (b : Bodies) (payload : Bytes) : Prop where
  exists_body : ∃ coding body, b.get? coding = some body
  decode_body : ∀ {coding : Coding} {body : Bytes}, b.get? coding = some body →
    coding.decode body = .ok payload

variable {b : Bodies} {coding : Coding} {body payload : Bytes}

theorem Carry.insert (h : b.Carry payload) (hd : coding.decode body = .ok payload) :
    (b.insert coding body).Carry payload where
  exists_body := ⟨coding, body, if_pos rfl⟩
  decode_body := by
    intro c stored hs
    simp only [Bodies.insert] at hs
    split at hs
    · next hc =>
      obtain rfl := Option.some.inj hs
      rw [hc, hd]
    · exact h.decode_body hs

theorem carry_insert_empty (hd : coding.decode body = .ok payload) :
    (empty.insert coding body).Carry payload where
  exists_body := ⟨coding, body, if_pos rfl⟩
  decode_body := by
    intro c stored hs
    simp only [Bodies.insert, empty] at hs
    split at hs
    · next hc =>
      obtain rfl := Option.some.inj hs
      rw [hc, hd]
    · cases hs

/-- Whatever real coding is asked for, a body can be made. -/
theorem Carry.derive? (h : b.Carry payload) (real : coding.isReal = true) :
    ∃ body, b.derive? coding = some body ∧ coding.decode body = .ok payload := by
  unfold Bodies.derive?
  cases hf : Coding.sourceOrder.findSome? fun source => do
      let stored ← b.get? source
      (source.convert coding stored).toOption with
  | none =>
    obtain ⟨source, stored, hs⟩ := h.exists_body
    have hd := h.decode_body hs
    obtain ⟨converted, hc⟩ := Coding.exists_convert hd real
    have nothing :=
      List.findSome?_eq_none_iff.1 hf source (Coding.mem_sourceOrder (Coding.isReal_of_decode hd))
    simp [hs, hc, Except.toOption] at nothing
  | some body =>
    obtain ⟨source, -, hb⟩ := List.exists_of_findSome?_eq_some hf
    obtain ⟨stored, hs, ho⟩ := Option.bind_eq_some_iff.1 hb
    refine ⟨body, rfl, ?_⟩
    cases hc : source.convert coding stored with
    | error => simp [hc, Except.toOption] at ho
    | ok converted =>
      simp only [hc, Except.toOption, Option.some.injEq] at ho
      obtain rfl := ho
      exact Coding.decode_of_convert (h.decode_body hs) hc

/-- **Whoever asks for a real coding gets the payload in it**, and the bodies carry it still. -/
theorem Carry.fetch (h : b.Carry payload) (real : coding.isReal = true) :
    ∃ answer bodies, b.fetch coding = (some answer, bodies) ∧
      coding.decode answer.body = .ok payload ∧
      bodies.Carry payload := by
  unfold Bodies.fetch
  cases hg : b.get? coding with
  | some body => exact ⟨_, _, rfl, h.decode_body hg, h⟩
  | none =>
    obtain ⟨body, hb, hd⟩ := h.derive? real
    simp only [real, if_true, hb]
    exact ⟨_, _, rfl, hd, h.insert hd⟩

end Bodies

/-! ### Groups -/

theorem mem_insertGroup {name group : String} {groups : List String} :
    name ∈ insertGroup group groups ↔ name = group ∨ name ∈ groups := by
  induction groups with
  | nil => simp [insertGroup]
  | cons first rest ih =>
    unfold insertGroup
    split
    · exact List.mem_cons
    · split
      · next he => simp [he]
      · rw [List.mem_cons, ih, List.mem_cons]
        exact or_left_comm

/-- A representation belongs to the groups that were added, but the empty name is none. -/
theorem Details.inGroup_addGroups {d : Details} {groups : List String} {name : String} :
    (d.addGroups groups).inGroup name = true ↔
      d.inGroup name = true ∨ name ≠ "" ∧ name ∈ groups := by
  have general : ∀ (added all : List String),
      name ∈ added.foldl (fun all group => insertGroup group all) all ↔
        name ∈ all ∨ name ∈ added := by
    intro added
    induction added with
    | nil => simp
    | cons group added ih =>
      intro all
      rw [List.foldl_cons, ih, mem_insertGroup, List.mem_cons, or_left_comm, or_assoc]
  simp only [inGroup, addGroups, List.contains_iff_mem, general, List.mem_filter, bne_iff_ne]
  rw [and_comm (a := name ∈ groups)]

end VariantCache
