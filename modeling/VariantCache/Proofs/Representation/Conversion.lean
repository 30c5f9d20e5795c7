import Mathlib.Tactic.Choose
import VariantCache.Proofs.Representation.Payload

/-!
# The payload that bodies are converted from

The bodies of a representation may be malformed, and they may carry different payloads. What is
converted is then the content of the first stored body that decodes, in the order in which sources
are tried (`Bodies.payload?`), and a body that is not there is made exactly when there is such a
content and the coding is a real one (`derive?_eq_some_iff`). Whatever is made decodes to that content, so
it may be put in as a source before or behind the others: the content stays the same
(`payload?_fetch`).

Bodies that are asked for one after the other are thus what was there and what was made from it
(`Enriches`), which decides how every request is answered (`Enriches.decoded_fetch`).
-/

namespace VariantCache

namespace Coding

theorem encode_identity (plain : Bytes) : identity.encode plain = .ok plain :=
  encode_eq_ok_iff.2 ⟨_, rfl, List.append_nil plain⟩

/-- A conversion to another coding decodes and encodes. -/
theorem convert_eq_encode {source target : Coding} {body plain : Bytes} (ne : source ≠ target)
    (h : source.decode body = .ok plain) : source.convert target body = target.encode plain := by
  rw [convert, if_neg ne, h]
  simp only [bind, Except.bind]
  split
  · next plainly =>
    rw [plainly, encode_identity]
    rfl
  · rfl

theorem convert_eq_error {source target : Coding} {body : Bytes} {failure : Failure}
    (ne : source ≠ target) (h : source.decode body = .error failure) :
    source.convert target body = .error failure := by
  rw [convert, if_neg ne, h]
  rfl

end Coding

namespace Bodies

variable {b larger : Bodies} {coding other : Coding} {body plain : Bytes}

/-! ### Putting in a body -/

@[simp] theorem get?_insert_self (b : Bodies) (coding : Coding) (body : Bytes) :
    (b.insert coding body).get? coding = some body := if_pos rfl

theorem get?_insert_of_ne (ne : other ≠ coding) (b : Bodies) (body : Bytes) :
    (b.insert coding body).get? other = b.get? other := if_neg ne

/-- A body that was not there adds its length. -/
theorem size_insert (absent : b.get? coding = none) (body : Bytes) :
    (b.insert coding body).size = b.size + body.length := by
  cases coding <;> simp [size, insert, Coding.all, total, absent] <;> omega

/-! ### The payload -/

/-- What a body decodes to, if it is there and does. -/
def content? (b : Bodies) (source : Coding) : Option Bytes :=
  (b.get? source).bind fun stored => (source.decode stored).toOption

/-- The content of the first source that decodes. -/
def payload? (b : Bodies) : Option Bytes := Coding.sourceOrder.findSome? b.content?

theorem content?_eq_some_iff :
    b.content? coding = some plain ↔
      ∃ stored, b.get? coding = some stored ∧ coding.decode stored = .ok plain := by
  unfold content?
  rw [Option.bind_eq_some_iff]
  refine exists_congr fun stored => and_congr_right fun _ => ?_
  cases coding.decode stored with
  | error => simp [Except.toOption]
  | ok => simp [Except.toOption]

/-- There is a payload when any of the sources decodes. -/
theorem isSome_payload?_iff :
    b.payload?.isSome ↔ ∃ source ∈ Coding.sourceOrder, ∃ stored plain,
      b.get? source = some stored ∧ source.decode stored = .ok plain := by
  rw [payload?, List.findSome?_isSome_iff]
  refine exists_congr fun source => and_congr_right fun _ => ?_
  simp only [Option.isSome_iff_exists, content?_eq_some_iff]
  exact exists_comm

/-- A body that is not there is made from the payload. -/
theorem derive?_eq_some_iff (absent : b.get? coding = none) (real : coding.isReal = true) :
    b.derive? coding = some body ↔
      ∃ plain, b.payload? = some plain ∧ coding.encode plain = .ok body := by
  choose coded encode_eq using Coding.exists_encode real
  have made (source : Coding) :
      (b.get? source).bind (fun stored => (source.convert coding stored).toOption) =
        (b.content? source).map coded := by
    cases hs : b.get? source with
    | none => simp [content?, hs]
    | some stored =>
      have ne : source ≠ coding := by
        rintro rfl
        rw [absent] at hs
        cases hs
      simp only [content?, hs, Option.bind_some]
      cases hd : source.decode stored with
      | error failure =>
        rw [Coding.convert_eq_error ne hd]
        rfl
      | ok plain =>
        rw [Coding.convert_eq_encode ne hd, encode_eq]
        rfl
  have derive?_eq : b.derive? coding = b.payload?.map coded := by
    rw [payload?, List.map_findSome?]
    exact congrArg (Coding.sourceOrder.findSome? ·) (funext made)
  simp only [derive?_eq, Option.map_eq_some_iff, encode_eq, Except.ok.injEq]

/-- A body with the same content may be put in. -/
theorem payload?_insert (h : b.payload? = some plain) (hd : coding.decode body = .ok plain) :
    (b.insert coding body).payload? = some plain := by
  have content {source : Coding} :
      (b.insert coding body).content? source =
        if source = coding then some plain else b.content? source := by
    split
    · next same =>
      subst same
      exact content?_eq_some_iff.2 ⟨body, get?_insert_self b source body, hd⟩
    · next ne => rw [content?, get?_insert_of_ne ne, content?]
  unfold payload? at *
  generalize Coding.sourceOrder = sources at *
  induction sources with
  | nil => exact h
  | cons source rest ih =>
    rw [List.findSome?_cons] at h ⊢
    rw [content]
    by_cases same : source = coding
    · rw [if_pos same]
    · rw [if_neg same]
      cases hc : b.content? source with
      | none =>
        rw [hc] at h
        exact ih h
      | some first =>
        rw [hc] at h
        exact h

/-! ### Asking for a body -/

theorem fetch_of_stored (h : b.get? coding = some body) :
    b.fetch coding = (some ⟨body, false⟩, b) := by
  unfold fetch
  rw [h]

/-- A body that is not there is made from the payload and put in. -/
theorem fetch_of_payload (absent : b.get? coding = none) (real : coding.isReal = true)
    (h : b.payload? = some plain) (he : coding.encode plain = .ok body) :
    b.fetch coding = (some ⟨body, true⟩, b.insert coding body) := by
  unfold fetch
  rw [absent, if_pos real, (derive?_eq_some_iff absent real).2 ⟨plain, h, he⟩]

/-- Without a payload, and in a coding that is not real, no body is made. -/
theorem fetch_of_none (absent : b.get? coding = none)
    (h : coding.isReal = false ∨ b.payload? = none) : b.fetch coding = (none, b) := by
  unfold fetch
  rw [absent]
  by_cases real : coding.isReal = true
  · have nothing : b.payload? = none := h.resolve_left (by simp [real])
    have derive?_eq : b.derive? coding = none :=
      Option.eq_none_iff_forall_ne_some.2 fun body hb => by
        obtain ⟨plain, hp, -⟩ := (derive?_eq_some_iff absent real).1 hb
        rw [nothing] at hp
        cases hp
    rw [if_pos real, derive?_eq]
  · rw [if_neg real]

/-- The ways in which a request for a body can go. -/
inductive Request (b : Bodies) (coding : Coding) : Option Answer × Bodies → Prop where
  /-- The body is there. -/
  | stored {body : Bytes} (h : b.get? coding = some body) :
    Request b coding (some ⟨body, false⟩, b)
  /-- The body is made from the payload. -/
  | made {plain body : Bytes} (absent : b.get? coding = none) (real : coding.isReal = true)
    (h : b.payload? = some plain) (he : coding.encode plain = .ok body) :
    Request b coding (some ⟨body, true⟩, b.insert coding body)
  /-- There is no body, and none can be made. -/
  | missing (absent : b.get? coding = none) (h : coding.isReal = false ∨ b.payload? = none) :
    Request b coding (none, b)

theorem request_fetch (b : Bodies) (coding : Coding) : Request b coding (b.fetch coding) := by
  cases absent : b.get? coding with
  | some body =>
    rw [fetch_of_stored absent]
    exact .stored absent
  | none =>
    by_cases possible : coding.isReal = true ∧ b.payload?.isSome
    · obtain ⟨real, present⟩ := possible
      obtain ⟨plain, h⟩ := Option.isSome_iff_exists.1 present
      obtain ⟨body, he⟩ := Coding.exists_encode real plain
      rw [fetch_of_payload absent real h he]
      exact .made absent real h he
    · have impossible : coding.isReal = false ∨ b.payload? = none := by
        rw [not_and_or, Bool.not_eq_true, Option.not_isSome_iff_eq_none] at possible
        exact possible
      rw [fetch_of_none absent impossible]
      exact .missing absent impossible

/-- A body that is not there is made exactly when there is a payload and the coding is real. -/
theorem isSome_fetch_iff (absent : b.get? coding = none) :
    (b.fetch coding).1.isSome ↔ coding.isReal = true ∧ b.payload?.isSome := by
  have request := request_fetch b coding
  generalize b.fetch coding = result at *
  cases request with
  | stored h =>
    rw [absent] at h
    cases h
  | made _ real h =>
    rw [h]
    exact iff_of_true rfl ⟨real, rfl⟩
  | missing _ h =>
    refine iff_of_false Bool.false_ne_true fun ⟨real, present⟩ => ?_
    rcases h with unreal | nothing
    · rw [unreal] at real
      cases real
    · rw [nothing] at present
      cases present

/-- The answer for a body that was not there is new, and is put in. -/
theorem fetch_of_answer (absent : b.get? coding = none) {answer : Answer}
    (h : (b.fetch coding).1 = some answer) :
    answer.isNew = true ∧ (b.fetch coding).2 = b.insert coding answer.body := by
  have request := request_fetch b coding
  generalize b.fetch coding = result at *
  cases request with
  | stored there =>
    rw [absent] at there
    cases there
  | made =>
    obtain rfl := Option.some.inj h
    exact ⟨rfl, rfl⟩
  | missing => cases h

/-- **The payload stays the same**, whatever is asked for. -/
theorem payload?_fetch (b : Bodies) (coding : Coding) : (b.fetch coding).2.payload? = b.payload? := by
  have h := request_fetch b coding
  generalize b.fetch coding = result at *
  cases h with
  | stored | missing => rfl
  | made absent real h he => rw [payload?_insert h (Coding.decode_encode he), h]

/-! ### Asking for one body after the other -/

/-- The larger bodies are those that were there, and what was made from them. -/
structure Enriches (larger b : Bodies) : Prop where
  stored : ∀ {coding : Coding} {body : Bytes}, b.get? coding = some body →
    larger.get? coding = some body
  payload : larger.payload? = b.payload?
  made : ∀ {coding : Coding} {body : Bytes}, larger.get? coding = some body →
    b.get? coding = none → coding.isReal = true ∧
      ∃ plain, b.payload? = some plain ∧ coding.decode body = .ok plain

theorem Enriches.refl (b : Bodies) : b.Enriches b where
  stored h := h
  payload := rfl
  made h absent := by
    rw [absent] at h
    cases h

theorem Enriches.fetch (h : larger.Enriches b) (coding : Coding) :
    (larger.fetch coding).2.Enriches b where
  payload := (payload?_fetch larger coding).trans h.payload
  stored := by
    intro c body hs
    have request := request_fetch larger coding
    generalize larger.fetch coding = result at *
    cases request with
    | stored | missing => exact h.stored hs
    | made absent real hp he =>
      have ne : c ≠ coding := by
        rintro rfl
        rw [h.stored hs] at absent
        cases absent
      rw [get?_insert_of_ne ne, h.stored hs]
  made := by
    intro c body hl absent
    have request := request_fetch larger coding
    generalize larger.fetch coding = result at *
    cases request with
    | stored | missing => exact h.made hl absent
    | made _ real hp he =>
      by_cases same : c = coding
      · subst same
        obtain rfl := Option.some.inj ((get?_insert_self larger c _).symm.trans hl)
        exact ⟨real, _, h.payload ▸ hp, Coding.decode_encode he⟩
      · rw [get?_insert_of_ne same] at hl
        exact h.made hl absent

/-- What is made decodes to the payload that was there before. -/
theorem Enriches.decode_of_isNew (h : larger.Enriches b) {answer : Answer}
    (ha : (larger.fetch coding).1 = some answer) (new : answer.isNew = true) :
    ∃ plain, b.payload? = some plain ∧ coding.decode answer.body = .ok plain := by
  have request := request_fetch larger coding
  generalize larger.fetch coding = result at *
  cases request with
  | stored =>
    obtain rfl := Option.some.inj ha
    cases new
  | made absent real hp he =>
    obtain rfl := Option.some.inj ha
    exact ⟨_, h.payload ▸ hp, Coding.decode_encode he⟩
  | missing => cases ha

/-- **The order of requests makes no difference**: what an answer decodes to is the same as if it had
been the first. -/
theorem Enriches.decoded_fetch (h : larger.Enriches b) (coding : Coding) :
    (larger.fetch coding).1.map (fun answer => coding.decode answer.body) =
      (b.fetch coding).1.map fun answer => coding.decode answer.body := by
  have first := request_fetch b coding
  generalize b.fetch coding = result at *
  cases first with
  | stored hs => rw [fetch_of_stored (h.stored hs)]
  | missing absent nothing =>
    have absent' : larger.get? coding = none := by
      refine Option.eq_none_iff_forall_ne_some.2 fun body hl => ?_
      obtain ⟨real, plain, hp, -⟩ := h.made hl absent
      rcases nothing with unreal | nothing
      · rw [unreal] at real
        cases real
      · rw [nothing] at hp
        cases hp
    rw [fetch_of_none absent' (nothing.imp_right h.payload.trans)]
  | made absent real hp he =>
    cases hl : larger.get? coding with
    | none => rw [fetch_of_payload hl real (h.payload.trans hp) he]
    | some body =>
      obtain ⟨-, plain, hp', hd⟩ := h.made hl absent
      obtain rfl := Option.some.inj (hp.symm.trans hp')
      rw [fetch_of_stored hl]
      simp only [Option.map_some, hd, Coding.decode_encode he]

end Bodies
end VariantCache
