import VariantCache.Proofs.Engine.Holding
import VariantCache.Proofs.Engine.Response
import VariantCache.Proofs.Engine.Version
import VariantCache.Proofs.Negotiation.Choice

/-!
# How a request is answered

An engine is sound when every version that its backend holds is of a production made for
the same key (`Sound`). Whatever the engine does keeps that (`Sound.serve`), if producers
give streams of the coding that they declare. A request in an acceptable variant is answered
from a version that is found (`serve_of_found`), or else a producer runs (`serve_of_missing`).
-/

namespace VariantCache

open Store Http

/-- Whatever the producers of a resource give for a request is a stream of the coding that they
declare. -/
def Valid {H : Type} (resource : Resource H)
    (run : H → Request → CacheKey → Except ProduceFailure Production) (request : Request) : Prop :=
  ∀ v ∈ resource, ∀ key p, run v.handler request key = .ok p → ∃ payload, p.HasPayload payload

namespace Engine

variable {made : Made} {now : Instant} {e : Engine} {key : CacheKey} {coding : Coding} {s : Shared}

/-! ### Soundness -/

/-- Every version that the backend holds is of a production made for the same key. -/
def Sound (made : Made) (e : Engine) : Prop := e.HoldsOnly (Version made)

theorem Sound.holdsOnly (h : e.Sound made) : e.HoldsOnly (Version made) := h

theorem Sound.mono {more : Made} (h : e.Sound made)
    (le : ∀ k p date, made k p date → more k p date) :
    e.Sound more := h.holdsOnly.imp rfl fun k _ v => v.mono (le k)

/-- A change of the counts, or of what is offered, makes no difference. -/
theorem Sound.congr {other : Engine} (h : e.Sound made) (backend : other.backend = e.backend)
    (shelf : other.shelf = e.shelf) : other.Sound made :=
  h.holdsOnly.imp backend fun _ _ v => shelf ▸ v

theorem Sound.load (h : e.Sound made) (key : CacheKey) :
    (e.load now key).2.Sound made ∧
      ∀ s, (e.load now key).1 = some s → Version made (e.load now key).2.shelf key s :=
  h.holdsOnly.load (Backend.copied_version made) fun _ _ => trivial

/-! ### Answers from the cache -/

theorem serveCached_of_none (h : (e.load now key).1 = none) :
    e.serveCached now key coding = (none, (e.load now key).2) := by
  unfold serveCached
  generalize e.load now key = loaded at *
  obtain ⟨found, e₁⟩ := loaded
  obtain rfl : found = none := h
  rfl

/-- The engine after an answer from the cache: a version that has grown a body is stored again. -/
def afterHit (e : Engine) (now : Instant) (key : CacheKey) (coding : Coding) (s : Shared)
    (isNew : Bool) :
    Engine :=
  let e := { e with shelf := (e.shelf.fetch s coding).2 }
  let e := if isNew then e.store now key s else e
  { e with counts := { e.counts with hits := e.counts.hits + 1 } }

theorem serveCached_of_some {answer : Bodies.Answer} (h : (e.load now key).1 = some s)
    (hf : ((e.load now key).2.shelf.fetch s coding).1 = some answer) :
    e.serveCached now key coding =
      (some (respond key coding s.details.headers answer.body
          (some (s.details.timeToLiveAt now).seconds) .hit),
        (e.load now key).2.afterHit now key coding s answer.isNew) := by
  unfold serveCached afterHit
  generalize e.load now key = loaded at *
  obtain ⟨found, e₁⟩ := loaded
  obtain rfl : found = some s := h
  simp only at hf ⊢
  generalize e₁.shelf.fetch s coding = fetched at *
  obtain ⟨found, shelf⟩ := fetched
  obtain rfl : found = some answer := hf
  rfl

variable {V : Shelf → CacheKey → Shared → Prop} {T : Shared → Prop}

/-- An answer from the cache lets in nothing but what was found, and copies of it. -/
theorem HoldsOnly.afterHit (copied : Backend.Copied V T) (h : e.HoldsOnly V)
    (fetched : ∀ k t, V e.shelf k t → V (e.shelf.fetch s coding).2 k t) (v : V e.shelf key s)
    (known : T s) (isNew : Bool) : (e.afterHit now key coding s isNew).HoldsOnly V := by
  have answered : { e with shelf := (e.shelf.fetch s coding).2 }.HoldsOnly V := h.imp rfl fetched
  have kept : (if isNew then { e with shelf := (e.shelf.fetch s coding).2 }.store now key s
      else { e with shelf := (e.shelf.fetch s coding).2 }).HoldsOnly V := by
    split
    · exact answered.store copied (fetched key s v) known
    · exact answered
  exact kept.imp rfl fun _ _ => id

theorem Sound.afterHit (h : e.Sound made) (v : Version made e.shelf key s)
    (real : coding.isReal = true) (isNew : Bool) :
    (e.afterHit now key coding s isNew).Sound made :=
  h.holdsOnly.afterHit (Backend.copied_version made) (fun _ _ v => v.fetch real) v trivial isNew

/-! ### Answers from the producer -/

/-- The engine after the answer of a producer. What is fresh for some time is stored. -/
def afterMiss (e : Engine) (now : Instant) (key : CacheKey) (coding : Coding) (p : Production) :
    Engine :=
  let (s, shelf) := e.shelf.add (p.represent now)
  let e := { e with shelf := (shelf.fetch s coding).2 }
  if e.backend.isSome && !p.lifetime.isZero then e.store now key s else e

/-- How long the answer of a producer may be kept by others. -/
def maxAge? (e : Engine) (p : Production) : Option Nat :=
  if e.backend.isSome && !p.lifetime.isZero then some p.lifetime.seconds else none

/-- A producer gives the answer, if a body can be made for it. -/
theorem serveProduced_of_some {p : Production} {answer : Bodies.Answer}
    (hf : ((e.shelf.add (p.represent now)).2.fetch (e.shelf.add (p.represent now)).1 coding).1 =
      some answer) :
    e.serveProduced now key coding p =
      (respond key coding (p.represent now).details.headers answer.body (e.maxAge? p) .miss,
        e.afterMiss now key coding p) := by
  unfold serveProduced afterMiss maxAge?
  have details : (e.shelf.add (p.represent now)).1.details = (p.represent now).details := rfl
  generalize e.shelf.add (p.represent now) = added at *
  obtain ⟨s, shelf⟩ := added
  simp only at hf details ⊢
  generalize shelf.fetch s coding = fetched at *
  obtain ⟨found, shelf'⟩ := fetched
  obtain rfl : found = some answer := hf
  simp only [details]

/-- An answer from a producer lets in nothing but what the producer gave, and copies of it, and that
only if it is fresh for some time. -/
theorem HoldsOnly.afterMiss {p : Production} (copied : Backend.Copied V T) (h : e.HoldsOnly V)
    (fetched : ∀ k t, V e.shelf k t →
      V ((e.shelf.add (p.represent now)).2.fetch (e.shelf.add (p.represent now)).1 coding).2 k t)
    (new : p.lifetime.isZero = false →
      V ((e.shelf.add (p.represent now)).2.fetch (e.shelf.add (p.represent now)).1 coding).2 key
        (e.shelf.add (p.represent now)).1 ∧ T (e.shelf.add (p.represent now)).1) :
    (e.afterMiss now key coding p).HoldsOnly V := by
  unfold Engine.afterMiss
  simp only
  have answered : { e with
      shelf := ((e.shelf.add (p.represent now)).2.fetch (e.shelf.add (p.represent now)).1 coding).2
      }.HoldsOnly V := h.imp rfl fetched
  split
  · next stored =>
    have lasts : p.lifetime.isZero = false := by simpa using (Bool.and_eq_true_iff.1 stored).2
    exact answered.store copied (new lasts).1 (new lasts).2
  · exact answered

/-- What a producer gave is stored as a version of it. -/
theorem Sound.afterMiss {more : Made} {p : Production} {payload : Bytes} (h : e.Sound made)
    (hp : p.HasPayload payload) (real : coding.isReal = true)
    (old : ∀ k p date, made k p date → more k p date)
    (new : p.lifetime.isZero = false → more key p now) :
    (e.afterMiss now key coding p).Sound more := by
  have carried := Shelf.carries_add e.shelf (hp.carry now)
  refine (h.mono old).holdsOnly.afterMiss (Backend.copied_version more)
    (fun _ _ v => (v.grows (e.shelf.grows_add _)).fetch real) fun lasts => ⟨?_, trivial⟩
  exact ⟨p, now, payload, new lasts, hp, rfl, carried.fetch real⟩

/-! ### Requests -/

variable {H : Type} {resource : Resource H}
  {run : H → Request → CacheKey → Except ProduceFailure Production} {request : Request}
  {v : Variant H}

/-- The request is for a variant of the resource, in a coding that the engine offers. -/
structure Chosen (e : Engine) (resource : Resource H) (request : Request) (v : Variant H)
    (coding : Coding) : Prop where
  variant : Negotiation.chooseVariant? resource request.accept request.acceptLanguage = some v
  coding : Negotiation.chooseCoding? request.acceptEncoding e.codings = some coding

theorem Chosen.isReal (h : e.Chosen resource request v coding) : coding.isReal = true :=
  Negotiation.isReal_of_chooseCoding? h.coding

/-- A request is for one variant and one coding at most. -/
theorem Chosen.unique {w : Variant H} {other : Coding} (h : e.Chosen resource request v coding)
    (h' : e.Chosen resource request w other) : v = w ∧ coding = other :=
  ⟨Option.some.inj (h.variant.symm.trans h'.variant), Option.some.inj (h.coding.symm.trans h'.coding)⟩

variable (now run) in
/-- A request that no variant or no coding suits is refused, and changes nothing that is stored. -/
theorem serve_of_refused (refused : ∀ v coding, ¬ e.Chosen resource request v coding) :
    (e.serve now resource run request).response = respondError .notAcceptable ∧
      (e.serve now resource run request).produced = none ∧
      (e.serve now resource run request).engine.backend = e.backend ∧
      (e.serve now resource run request).engine.shelf = e.shelf ∧
      (e.serve now resource run request).engine.counts.productions = e.counts.productions := by
  unfold serve
  split
  · exact ⟨rfl, rfl, rfl, rfl, rfl⟩
  · next v hv =>
    split
    · exact ⟨rfl, rfl, rfl, rfl, rfl⟩
    · next coding hc => exact absurd ⟨hv, hc⟩ (refused v coding)

theorem serve_of_chosen (h : e.Chosen resource request v coding) :
    e.serve now resource run request =
      match e.serveCached now (keyOf request v) coding with
      | (some response, e) => ⟨response, e, none⟩
      | (none, e) =>
        e.produce now (keyOf request v) coding (run v.handler request (keyOf request v)) := by
  unfold serve
  split
  · next hv => exact nomatch h.variant.symm.trans hv
  · next v' hv =>
    obtain rfl := Option.some.inj (h.variant.symm.trans hv)
    split
    · next hc => exact nomatch h.coding.symm.trans hc
    · next coding' hc =>
      obtain rfl := Option.some.inj (h.coding.symm.trans hc)
      rfl

variable (run) in
/-- A body of a version that is found answers the request. -/
theorem serve_of_answer {answer : Bodies.Answer} (h : e.Chosen resource request v coding)
    (found : (e.load now (keyOf request v)).1 = some s)
    (hf : ((e.load now (keyOf request v)).2.shelf.fetch s coding).1 = some answer) :
    e.serve now resource run request =
      ⟨respond (keyOf request v) coding s.details.headers answer.body
          (some (s.details.timeToLiveAt now).seconds) .hit,
        (e.load now (keyOf request v)).2.afterHit now (keyOf request v) coding s answer.isNew,
        none⟩ := by
  rw [serve_of_chosen h, serveCached_of_some found hf]

variable (run) in
/-- A version that is found answers the request. -/
theorem serve_of_found (h : e.Chosen resource request v coding)
    (found : (e.load now (keyOf request v)).1 = some s)
    (version : Version made (e.load now (keyOf request v)).2.shelf (keyOf request v) s) :
    ∃ answer : Bodies.Answer, ∃ p date payload, made (keyOf request v) p date ∧
      s.details = (p.represent date).details ∧ p.HasPayload payload ∧
      coding.decode answer.body = .ok payload ∧
      e.serve now resource run request =
        ⟨respond (keyOf request v) coding s.details.headers answer.body
            (some (s.details.timeToLiveAt now).seconds) .hit,
          (e.load now (keyOf request v)).2.afterHit now (keyOf request v) coding s answer.isNew,
          none⟩ := by
  obtain ⟨p, date, payload, isMade, version⟩ := version
  obtain ⟨answer, hf, hd⟩ := Shelf.exists_fetch version.carries h.isReal
  exact ⟨answer, p, date, payload, isMade, version.details, version.hasPayload, hd,
    serve_of_answer run h found hf⟩

/-- The engine when the producer has just run. -/
def counted (e : Engine) : Engine :=
  { e with counts :=
      { e.counts with misses := e.counts.misses + 1, productions := e.counts.productions + 1 } }

variable (run) in
/-- Without a version the producer runs. -/
theorem serve_of_missing (h : e.Chosen resource request v coding)
    (missing : (e.load now (keyOf request v)).1 = none) :
    e.serve now resource run request =
      (e.load now (keyOf request v)).2.produce now (keyOf request v) coding
        (run v.handler request (keyOf request v)) := by
  rw [serve_of_chosen h, serveCached_of_none missing]

theorem produce_of_error {result : Except ProduceFailure Production} {failure : ProduceFailure}
    (error : result = .error failure) :
    e.produce now key coding result = ⟨respondError .internalError, e.counted, some key⟩ := by
  subst error
  rfl

theorem produce_of_some {result : Except ProduceFailure Production} {p : Production}
    {answer : Bodies.Answer} (ok : result = .ok p)
    (hf : ((e.shelf.add (p.represent now)).2.fetch (e.shelf.add (p.represent now)).1 coding).1 =
      some answer) :
    e.produce now key coding result =
      ⟨respond key coding (p.represent now).details.headers answer.body (e.counted.maxAge? p) .miss,
        e.counted.afterMiss now key coding p, some key⟩ := by
  subst ok
  show (⟨(e.counted.serveProduced now key coding p).1, (e.counted.serveProduced now key coding p).2,
    some key⟩ : Served) = _
  rw [serveProduced_of_some (e := e.counted) hf]

variable (now e key) in
theorem produce_of_ok {result : Except ProduceFailure Production} {p : Production} {payload : Bytes}
    (ok : result = .ok p) (hp : p.HasPayload payload) (real : coding.isReal = true) :
    ∃ body, coding.decode body = .ok payload ∧
      e.produce now key coding result =
        ⟨respond key coding (p.represent now).details.headers body (e.counted.maxAge? p) .miss,
          e.counted.afterMiss now key coding p, some key⟩ := by
  obtain ⟨answer, hf, hd⟩ :=
    Shelf.exists_fetch (Shelf.carries_add e.shelf (hp.carry now)) real
  exact ⟨answer.body, hd, produce_of_some ok hf⟩

/-- Where a producer runs, the response does not say that it came from the cache. -/
theorem not_saysCache_produce (result : Except ProduceFailure Production) :
    ¬ (e.produce now key coding result).response.SaysCache .hit := by
  cases result with
  | error failure => exact not_saysCache_respondError _ _
  | ok p =>
    show ¬ (e.counted.serveProduced now key coding p).1.SaysCache .hit
    unfold serveProduced
    simp only
    split
    · exact not_saysCache_respondError _ _
    · exact fun hit => CacheStatus.noConfusion (saysCache_unique hit saysCache_respond)

theorem counts_load (now : Instant) (key : CacheKey) (e : Engine) :
    (e.load now key).2.counts = e.counts := by
  unfold Engine.load
  split <;> rfl

theorem counts_store (now : Instant) (key : CacheKey) (s : Shared) (e : Engine) :
    (e.store now key s).counts = e.counts := by
  unfold Engine.store
  split <;> rfl

/-- An answer from the cache is no run of a producer. -/
theorem productions_afterHit (isNew : Bool) :
    (e.afterHit now key coding s isNew).counts.productions = e.counts.productions := by
  unfold afterHit
  simp only
  split
  · rw [counts_store]
  · rfl

/-- An answer from a producer is one run of it. -/
theorem productions_produce (result : Except ProduceFailure Production) :
    (e.produce now key coding result).engine.counts.productions = e.counts.productions + 1 := by
  cases result with
  | error failure => rfl
  | ok p =>
    show (e.counted.serveProduced now key coding p).2.counts.productions =
      e.counted.counts.productions
    unfold serveProduced
    simp only
    split
    · rfl
    · simp only
      split
      · rw [counts_store]
      · rfl

/-- What a load gives has not expired. -/
theorem le_expiration_of_load (h : (e.load now key).1 = some s) : now ≤ s.details.expiration := by
  unfold Engine.load at h
  cases hb : e.backend with
  | none =>
    rw [hb] at h
    cases h
  | some b =>
    rw [hb] at h
    exact Backend.le_expiration_of_load h

/-- **A sound engine is sound after a request**, where what the producer gave now was made too. -/
theorem Sound.serve {more : Made} (h : e.Sound made) (valid : Valid resource run request)
    (old : ∀ k p date, made k p date → more k p date)
    (new : ∀ v p,
      Negotiation.chooseVariant? resource request.accept request.acceptLanguage = some v →
      (e.serve now resource run request).produced = some (keyOf request v) →
      run v.handler request (keyOf request v) = .ok p → p.lifetime.isZero = false →
      more (keyOf request v) p now) :
    (e.serve now resource run request).engine.Sound more := by
  by_cases chosen : ∃ v coding, e.Chosen resource request v coding
  · obtain ⟨v, coding, chosen⟩ := chosen
    have loaded := @Sound.load _ now _ h (keyOf request v)
    cases found : (e.load now (keyOf request v)).1 with
    | some s =>
      have version := loaded.2 s found
      obtain ⟨answer, p, date, payload, -, -, -, -, served⟩ :=
        serve_of_found run chosen found version
      rw [served]
      exact (loaded.1.afterHit version chosen.isReal answer.isNew).mono old
    | none =>
      have served := serve_of_missing run chosen found
      cases result : run v.handler request (keyOf request v) with
      | error failure =>
        rw [served, produce_of_error result]
        exact (loaded.1.congr rfl rfl).mono old
      | ok p =>
        obtain ⟨payload, hp⟩ :=
          valid v (Negotiation.mem_of_chooseVariant? chosen.variant) _ p result
        obtain ⟨body, -, produced⟩ :=
          produce_of_ok now (e.load now (keyOf request v)).2 (keyOf request v) result hp
            chosen.isReal
        rw [produced] at served
        rw [served]
        have counted : (e.load now (keyOf request v)).2.counted.Sound made :=
          loaded.1.congr rfl rfl
        exact counted.afterMiss hp chosen.isReal old
          (new v p chosen.variant (by rw [served]) result)
  · have refused := serve_of_refused now run fun v coding h => chosen ⟨v, coding, h⟩
    exact (h.congr refused.2.2.1 refused.2.2.2.1).mono old

end Engine
end VariantCache
