import VariantCache.Proofs.Engine.Version

/-!
# What a production looks like in a coding

The rendition of a production in a coding is its body, converted (`Production.Renders`);
there is one at most (`Renders.unique`). A body that is made from another rendition, in
whatever coding that is, is the rendition too (`Renders.convert`): both carry one payload,
and encoding makes the same bytes on every run. So a representation of a production that
keeps the body it was given has nothing but renditions, whichever codings were asked for
and in whatever order (`Bodies.RenditionsOf`).
-/

namespace VariantCache

/-! ### Conversion -/

namespace Coding

variable {source target : Coding} {body plain : Bytes}

theorem convert_self (coding : Coding) (body : Bytes) : coding.convert coding body = .ok body := by
  rw [convert, if_pos rfl]
  rfl

/-- A conversion to another coding depends on the payload alone. -/
theorem convert_of_decode (ne : source ≠ target) (h : source.decode body = .ok plain) :
    source.convert target body =
      if target = identity then .ok plain else target.encode plain := by
  rw [convert, if_neg ne, h]
  by_cases plainly : target = identity
  · simp only [bind, Except.bind, if_pos plainly]
    rfl
  · simp only [bind, Except.bind, if_neg plainly]

end Coding

/-! ### Renditions -/

namespace Production

variable {p : Production} {source coding : Coding} {stored body other payload : Bytes}

/-- The body is what the production looks like in the coding. -/
def Renders (p : Production) (coding : Coding) (body : Bytes) : Prop :=
  p.coding.convert coding p.body = .ok body

theorem renders_own (p : Production) : p.Renders p.coding p.body :=
  Coding.convert_self p.coding p.body

/-- In a coding a production looks in one way only. -/
theorem Renders.unique (h : p.Renders coding body) (h' : p.Renders coding other) : body = other :=
  Except.ok.inj (h.symm.trans h')

theorem Renders.decode (h : p.Renders coding body) (hp : p.HasPayload payload) :
    coding.decode body = .ok payload :=
  Coding.decode_of_convert hp h

/-- What is made from one rendition is another. The coding that the production is in is not made. -/
theorem Renders.convert (h : p.Renders source stored) (hp : p.HasPayload payload)
    (own : coding ≠ p.coding) (ne : coding ≠ source)
    (hc : source.convert coding stored = .ok body) : p.Renders coding body := by
  rw [Coding.convert_of_decode ne.symm (h.decode hp)] at hc
  rw [Renders, Coding.convert_of_decode own.symm hp, hc]

end Production

/-! ### Bodies -/

namespace Bodies

/-- The body of a production is there, and there is nothing but renditions of it. -/
structure RenditionsOf (b : Bodies) (p : Production) : Prop where
  own : b.get? p.coding = some p.body
  renders : ∀ {coding : Coding} {body : Bytes}, b.get? coding = some body → p.Renders coding body

variable {b : Bodies} {p : Production} {coding : Coding} {body payload : Bytes}

theorem renditionsOf_represent (p : Production) (date : Instant) :
    (p.represent date).bodies.RenditionsOf p where
  own := if_pos rfl
  renders := by
    intro coding body h
    have given : (if coding = p.coding then some p.body else none) = some body := h
    by_cases own : coding = p.coding
    · rw [if_pos own] at given
      rw [own, ← Option.some.inj given]
      exact p.renders_own
    · rw [if_neg own] at given
      cases given

theorem RenditionsOf.carry (h : b.RenditionsOf p) (hp : p.HasPayload payload) :
    b.Carry payload where
  exists_body := ⟨p.coding, p.body, h.own⟩
  decode_body stored := (h.renders stored).decode hp

theorem RenditionsOf.insert (h : b.RenditionsOf p) (own : coding ≠ p.coding)
    (rendered : p.Renders coding body) : (b.insert coding body).RenditionsOf p where
  own := by
    rw [← h.own]
    exact if_neg own.symm
  renders := by
    intro c stored hs
    simp only [Bodies.insert] at hs
    by_cases new : c = coding
    · rw [if_pos new] at hs
      rw [new, ← Option.some.inj hs]
      exact rendered
    · rw [if_neg new] at hs
      exact h.renders hs

/-- A body that is not there yet is made as a rendition, from whichever source. -/
theorem RenditionsOf.derive? (h : b.RenditionsOf p) (hp : p.HasPayload payload)
    (absent : b.get? coding = none) (hd : b.derive? coding = some body) :
    p.Renders coding body := by
  obtain ⟨source, -, hs⟩ := List.exists_of_findSome?_eq_some hd
  obtain ⟨stored, there, ho⟩ := Option.bind_eq_some_iff.1 hs
  have notHere {c : Coding} {here : Bytes} (h : b.get? c = some here) : coding ≠ c := by
    rintro rfl
    rw [absent] at h
    cases h
  cases hc : source.convert coding stored with
  | error failure =>
    rw [hc] at ho
    cases ho
  | ok converted =>
    rw [hc] at ho
    obtain rfl : converted = body := Option.some.inj ho
    exact (h.renders there).convert hp (notHere h.own) (notHere there) hc

/-- **Whoever asks for a real coding gets the rendition in it**, and the bodies are renditions
still. -/
theorem RenditionsOf.fetch (h : b.RenditionsOf p) (hp : p.HasPayload payload)
    (real : coding.isReal = true) :
    ∃ answer bodies, b.fetch coding = (some answer, bodies) ∧ p.Renders coding answer.body ∧
      bodies.RenditionsOf p := by
  unfold Bodies.fetch
  cases hg : b.get? coding with
  | some body => exact ⟨_, _, rfl, h.renders hg, h⟩
  | none =>
    obtain ⟨body, hb, -⟩ := (h.carry hp).derive? real
    have rendered := h.derive? hp hg hb
    have own : coding ≠ p.coding := by
      rintro rfl
      rw [h.own] at hg
      cases hg
    simp only [real, if_true, hb]
    exact ⟨_, _, rfl, rendered, h.insert own rendered⟩

end Bodies

/-! ### Stored productions -/

/-- A production, with the key that it was made for and the date. -/
structure Origin where
  key : CacheKey
  production : Production
  date : Instant

namespace Origin

/-- The details of a version of the production. -/
def details (o : Origin) : Details := (o.production.represent o.date).details

/-- The last date at which the production is fresh. -/
def expiration (o : Origin) : Instant := o.date.addSaturating o.production.lifetime

/-- What is stored is a version of the production, and has nothing but renditions of it. -/
structure Keeps (o : Origin) (shelf : Shelf) (s : Shared) : Prop where
  exists_payload : ∃ payload, o.production.HasPayload payload
  details : s.details = o.details
  place_lt : s.place < shelf.bodies.size
  bodies : (shelf.bodiesOf s).RenditionsOf o.production

variable {o : Origin} {shelf larger : Shelf} {s t : Shared} {coding : Coding}

theorem Keeps.grows (h : o.Keeps shelf s) (g : shelf.Grows larger) : o.Keeps larger s where
  exists_payload := h.exists_payload
  details := h.details
  place_lt := g.place_lt h.place_lt
  bodies := by
    rw [g.bodiesOf h.place_lt]
    exact h.bodies

theorem Keeps.copy (h : o.Keeps shelf s) : o.Keeps (shelf.copy s).2 (shelf.copy s).1 where
  exists_payload := h.exists_payload
  details := h.details
  place_lt := shelf.place_copy_lt s
  bodies := by
    rw [Shelf.bodiesOf_copy]
    exact h.bodies

theorem keeps_add (shelf : Shelf) (hp : ∃ payload, o.production.HasPayload payload) :
    o.Keeps (shelf.add (o.production.represent o.date)).2
      (shelf.add (o.production.represent o.date)).1 where
  exists_payload := hp
  details := rfl
  place_lt := by simp [Shelf.add]
  bodies := by
    rw [Shelf.bodiesOf_add]
    exact Bodies.renditionsOf_represent o.production o.date

/-- A request for a body of any place leaves renditions in all places. -/
theorem Keeps.fetch (h : o.Keeps shelf t) (real : coding.isReal = true) :
    o.Keeps (shelf.fetch s coding).2 t where
  exists_payload := h.exists_payload
  details := h.details
  place_lt := by simpa using h.place_lt
  bodies := by
    obtain ⟨payload, hp⟩ := h.exists_payload
    refine Shelf.bodiesOf_fetch (P := (·.RenditionsOf o.production)) (fun b all => ?_) h.place_lt
      h.bodies
    obtain ⟨answer, bodies, hf, -, kept⟩ := all.fetch hp real
    rw [hf]
    exact kept

/-- A request for a body is answered with the rendition. -/
theorem Keeps.exists_fetch (h : o.Keeps shelf s) (real : coding.isReal = true) :
    ∃ answer, (shelf.fetch s coding).1 = some answer ∧
      o.production.Renders coding answer.body := by
  obtain ⟨payload, hp⟩ := h.exists_payload
  obtain ⟨answer, bodies, hf, rendered, -⟩ := h.bodies.fetch hp real
  exact ⟨answer, by rw [Shelf.fst_fetch, hf], rendered⟩

end Origin
end VariantCache
