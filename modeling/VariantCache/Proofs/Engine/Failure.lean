import VariantCache.Proofs.Engine.Outcome
import VariantCache.Proofs.Engine.Refinement

/-!
# Requests that fail

A request may fail because no variant or no coding is acceptable, because its producer
fails, or because the body that the producer gives cannot be converted. None of these
stores anything, and neither does an answer that is fresh for no time. The first two leave
the cache alone altogether; the others come after a look into the cache, which may have
evicted the expired entry of the key that was asked for (`Spares`), and nothing else
(`failures_spare_cache`). The error that is sent has nothing of a production.
-/

namespace VariantCache

open Store Http

/-! ### What a look into a map store leaves -/

namespace Store.MapStore

variable {now date : Instant} {key other : CacheKey} {m left : MapStore}

/-- The store is left as it is, or without the expired entry of a key, which counts as evicted. -/
inductive Spares (now : Instant) (key : CacheKey) (m : MapStore) : MapStore → Prop where
  | all : Spares now key m m
  | others {s : Shared} (stored : m.entries.get? key = some s)
    (expired : s.details.expiredAt now = true) :
    Spares now key m { m with entries := m.entries.erase key, evictions := m.evictions + 1 }

/-- A load spares all but the expired entry of its key. -/
theorem spares_load (now : Instant) (key : CacheKey) (m : MapStore) :
    m.Spares now key (m.load now key).2 := by
  unfold load
  cases stored : m.entries.get? key with
  | none => exact .all
  | some s =>
    by_cases expired : s.details.expiredAt now = true
    · simp only [expired, if_true]
      exact .others stored expired
    · simp only [expired]
      exact .all

/-- Every other key loads as before. -/
theorem Spares.load_of_ne (h : m.Spares now key left) (ne : other ≠ key) (date : Instant) :
    (left.load date other).1 = (m.load date other).1 := by
  cases h with
  | all => rfl
  | others stored expired =>
    refine load_congr ?_
    show (m.entries.erase key).get? other = m.entries.get? other
    rw [Table.get?_erase, if_neg ne]

end Store.MapStore

/-! ### What stands on the shelf -/

/-- A request for a body of what was put on the shelf last leaves the other bodies alone. -/
theorem Shelf.grows_fetch_add (shelf : Shelf) (r : Representation) (coding : Coding) :
    shelf.Grows ((shelf.add r).2.fetch (shelf.add r).1 coding).2 := by
  have added := shelf.grows_add r
  refine ⟨by simpa using added.size_le, fun place lt => ?_⟩
  rw [← added.same place lt]
  unfold Shelf.fetch
  split
  · split
    · have apart : shelf.bodies.size ≠ place := (Nat.ne_of_lt lt).symm
      simp [Shelf.add, Array.getD_eq_getD_getElem?, apart]
    · rfl
  · rfl

namespace Engine

/-! ### What a failure leaves -/

variable {now : Instant} {e after : Engine} {m : MapStore} {key : CacheKey} {coding : Coding}

/-- What a request for a key that stores nothing leaves of an engine over a map store: the store, but
for the expired entry of the key, so that all other keys load as before; and all bodies. -/
structure Spares (e : Engine) (m : MapStore) (now : Instant) (key : CacheKey) (after : Engine) :
    Prop where
  store : ∃ left, after.Over left ∧ m.Spares now key left
  others : ∀ other ≠ key, ∀ date, (after.load date other).1 = (e.load date other).1
  shelf : e.shelf.Grows after.shelf

/-- A look into the cache spares it, and so does what leaves the backend alone after it. -/
theorem Over.spares (above : e.Over m)
    (backend : after.backend = (e.load now key).2.backend) (shelf : e.shelf.Grows after.shelf) :
    e.Spares m now key after := by
  have left : after.Over (m.load now key).2 := by
    rw [Over, backend, above.load]
  refine ⟨⟨_, left, m.spares_load now key⟩, fun other ne date => ?_, shelf⟩
  rw [left.load, above.load]
  exact (m.spares_load now key).load_of_ne ne date

/-- The headers of a response that has no representation to send: nothing of a production. -/
def errorHeaders : Headers :=
  [("content-type", Bytes.ofString "text/plain; charset=utf-8"),
    ("cache-control", Bytes.ofString "no-store"), ("vary", Bytes.ofString varyOn),
    ("server", Bytes.ofString serverName)]

variable {result : Except ProduceFailure Production} {served : Served}

/-- A request that ends in an error of the server spares the cache. -/
theorem Over.spares_of_internalError (above : e.Over m)
    (outcome : Outcome now e key coding result served)
    (failed : served.response.status = .internalError) : e.Spares m now key served.engine := by
  have loaded := e.grows_load now key
  cases outcome with
  | replayed => cases failed
  | failed => exact above.spares rfl loaded
  | spoiled => exact above.spares rfl (loaded.trans (Shelf.grows_add _ _))
  | made => cases failed

/-- An answer of a producer that is fresh for no time spares the cache. -/
theorem Over.spares_of_miss {p : Production} (above : e.Over m)
    (outcome : Outcome now e key coding result served) (ok : result = .ok p)
    (momentary : p.lifetime.isZero = true) (miss : served.response.SaysCache .miss) :
    e.Spares m now key served.engine := by
  cases outcome with
  | replayed => cases saysCache_unique miss saysCache_respond
  | failed => exact absurd miss (not_saysCache_respondError _ _)
  | spoiled => exact absurd miss (not_saysCache_respondError _ _)
  | @made made answer lacks isOk fetched =>
    obtain rfl := Except.ok.inj (ok.symm.trans isOk)
    have loaded : (e.load now key).2.counted.Over (m.load now key).2 := by
      rw [above.load]
      rfl
    have after := loaded.afterMiss now key coding p
    rw [if_pos momentary] at after
    have stands := Shelf.grows_fetch_add (e.load now key).2.shelf (p.represent now) coding
    refine above.spares ?_ ((e.grows_load now key).trans (after.2 ▸ stands))
    rw [above.load] at after ⊢
    exact after.1

/-- The error that is sent has nothing of a production. -/
theorem headers_respondError (status : Status) :
    (respondError status).headers = errorHeaders := by
  show addCommon (Headers.replaceText [_] "cache-control" (cacheControl none)) = errorHeaders
  decide +kernel

/-- **A request that fails spares the cache**, for every state of an engine over a map store. One
that no variant or no coding suits runs no producer and leaves everything as it is. One that ends in
an error of the server, and an answer that is fresh for no time, store nothing: at most the expired
entry of the key is evicted. All errors have the same headers. -/
theorem failures_spare_cache {m : MapStore} {e : Engine} (above : e.Over m) (now : Instant)
    {H : Type} (resource : Resource H)
    (run : H → Request → CacheKey → Except ProduceFailure Production) (request : Request) :
    ((e.serve now resource run request).response.status = .notAcceptable →
      (e.serve now resource run request).produced = none ∧
      (e.serve now resource run request).engine.counts.productions = e.counts.productions ∧
      (e.serve now resource run request).engine.Over m ∧
      (e.serve now resource run request).engine.shelf = e.shelf) ∧
    ((e.serve now resource run request).response.status = .internalError →
      ∃ v coding, e.Chosen resource request v coding ∧
        e.Spares m now (keyOf request v) (e.serve now resource run request).engine) ∧
    (∀ v coding p, e.Chosen resource request v coding →
      run v.handler request (keyOf request v) = .ok p → p.lifetime.isZero = true →
      (e.serve now resource run request).response.SaysCache .miss →
        e.Spares m now (keyOf request v) (e.serve now resource run request).engine) ∧
    ((e.serve now resource run request).response.status = .notAcceptable ∨
      (e.serve now resource run request).response.status = .internalError →
        (e.serve now resource run request).response.headers = errorHeaders) := by
  by_cases chosen : ∃ v coding, e.Chosen resource request v coding
  · obtain ⟨v, coding, chosen⟩ := chosen
    have outcome := outcome_of_chosen run now chosen
    refine ⟨fun refused => ?_, fun failed => ?_, fun w other p chosen' ok momentary miss => ?_,
      fun failed => ?_⟩
    · generalize e.serve now resource run request = served at *
      cases outcome <;> cases refused
    · exact ⟨v, coding, chosen, above.spares_of_internalError outcome failed⟩
    · obtain ⟨rfl, rfl⟩ := chosen.unique chosen'
      exact above.spares_of_miss outcome ok momentary miss
    · generalize e.serve now resource run request = served at *
      cases outcome with
      | replayed | made => rcases failed with failed | failed <;> cases failed
      | failed | spoiled => exact headers_respondError _
  · obtain ⟨response, produced, backend, shelf, productions⟩ :=
      serve_of_refused now run fun v coding h => chosen ⟨v, coding, h⟩
    refine ⟨fun _ => ⟨produced, productions, backend.trans above, shelf⟩, fun failed => ?_,
      fun v coding _ chosen' => absurd ⟨v, coding, chosen'⟩ chosen, fun _ => ?_⟩
    · rw [response] at failed
      cases failed
    · rw [response]
      exact headers_respondError _

/-- A map store with a greeting that was made at the start, for two paths. -/
def greetingTwice : MapStore :=
  let s : Shared := ⟨(Session.greeting.represent (.ofSeconds 0)).details, 0⟩
  ((MapStore.empty (.ofSeconds 10)).store (.ofSeconds 0) ⟨"/", "", "", ""⟩ s).store (.ofSeconds 0)
    ⟨"/again", "", "", ""⟩ s

/-- An engine over that store. -/
def overGreetings : Engine :=
  { ofBackend (some (.leaf (.map greetingTwice))) with
    shelf := (Shelf.empty.add (Session.greeting.represent (.ofSeconds 0))).2 }

/-- The greeting is asked for when it has expired, and the producer fails: the greeting for the
other path stays. A request that refuses every coding leaves both. -/
theorem failures_spare_greetings :
    (∃ v coding, overGreetings.Chosen [(⟨"", "", "", ()⟩ : Variant Unit)] (.ofPath "/") v coding ∧
      overGreetings.Spares greetingTwice (.ofSeconds 61) (keyOf (.ofPath "/") v)
        (overGreetings.serve (.ofSeconds 61) [⟨"", "", "", ()⟩] (fun _ _ _ => .error ⟨"none"⟩)
          (.ofPath "/")).engine) ∧
    (overGreetings.serve (.ofSeconds 61) [⟨"", "", "", ()⟩] (fun _ _ _ => .error ⟨"none"⟩)
      ⟨"/", none, none, none, some "*;q=0"⟩).engine.Over greetingTwice := by
  have above : overGreetings.Over greetingTwice := rfl
  have failed := failures_spare_cache above (.ofSeconds 61) [(⟨"", "", "", ()⟩ : Variant Unit)]
    (fun _ _ _ => .error ⟨"none"⟩) (.ofPath "/")
  have refused := failures_spare_cache above (.ofSeconds 61) [(⟨"", "", "", ()⟩ : Variant Unit)]
    (fun _ _ _ => .error ⟨"none"⟩) ⟨"/", none, none, none, some "*;q=0"⟩
  exact ⟨failed.2.1 (by decide +kernel), (refused.1 (by decide +kernel)).2.2.1⟩

end Engine
end VariantCache
