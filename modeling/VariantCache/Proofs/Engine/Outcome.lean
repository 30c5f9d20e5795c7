import VariantCache.Proofs.Engine.Serving

/-!
# What becomes of a request

A request for a variant has one of four outcomes, whatever producers give and whatever is
stored (`Outcome`, `outcome_of_chosen`): a version is found that has a body in the coding,
and is replayed; or there is none, and the producer fails, gives a body that cannot be
converted, or gives the answer. Nothing is assumed of the streams that producers give: a
version that is found may turn out to be of no use.
-/

namespace VariantCache

open Store Http

namespace Engine

variable {now : Instant} {e : Engine} {key : CacheKey} {coding : Coding} {s : Shared}
  {p : Production}

/-- There is no version of a key that has a body in the coding or can be converted to it. -/
def Lacks (e : Engine) (now : Instant) (key : CacheKey) (coding : Coding) : Prop :=
  ∀ s, (e.load now key).1 = some s → ((e.load now key).2.shelf.fetch s coding).1 = none

/-- A version without a usable body counts as none, and is left as it is. -/
theorem serveCached_of_lacks (h : e.Lacks now key coding) :
    e.serveCached now key coding = (none, (e.load now key).2) := by
  cases found : (e.load now key).1 with
  | none => exact serveCached_of_none found
  | some s =>
    have absent := h s found
    have same := Shelf.snd_fetch_of_none absent
    unfold serveCached
    generalize e.load now key = loaded at *
    obtain ⟨loadedVersion, e₁⟩ := loaded
    obtain rfl : loadedVersion = some s := found
    simp only at absent same ⊢
    generalize e₁.shelf.fetch s coding = fetched at *
    obtain ⟨answer, shelf⟩ := fetched
    obtain rfl : answer = none := absent
    obtain rfl : shelf = e₁.shelf := same
    rfl

/-- The engine when the body that a producer gave could not be converted. -/
def spoiled (e : Engine) (now : Instant) (p : Production) : Engine :=
  { e.counted with shelf := (e.shelf.add (p.represent now)).2 }

theorem produce_of_none {result : Except ProduceFailure Production} (ok : result = .ok p)
    (h : ((e.shelf.add (p.represent now)).2.fetch (e.shelf.add (p.represent now)).1 coding).1 =
      none) :
    e.produce now key coding result =
      ⟨respondError .internalError, e.spoiled now p, some key⟩ := by
  subst ok
  have same := Shelf.snd_fetch_of_none h
  show (⟨(e.counted.serveProduced now key coding p).1, (e.counted.serveProduced now key coding p).2,
    some key⟩ : Served) = _
  unfold serveProduced spoiled
  have shelf : e.counted.shelf = e.shelf := rfl
  simp only [shelf]
  generalize e.shelf.add (p.represent now) = added at *
  obtain ⟨t, larger⟩ := added
  simp only at h same ⊢
  generalize larger.fetch t coding = fetched at *
  obtain ⟨answer, after⟩ := fetched
  obtain rfl : answer = none := h
  obtain rfl : after = larger := same
  rfl

/-- The outcomes of a request for a key in a coding, where `result` is what the producer gives if it
runs. -/
inductive Outcome (now : Instant) (e : Engine) (key : CacheKey) (coding : Coding)
    (result : Except ProduceFailure Production) : Served → Prop where
  /-- A version is found that has a body, and is replayed. -/
  | replayed {s : Shared} {answer : Bodies.Answer} (found : (e.load now key).1 = some s)
    (fetched : ((e.load now key).2.shelf.fetch s coding).1 = some answer) :
    Outcome now e key coding result
      ⟨respond key coding s.details.headers answer.body
          (some (s.details.timeToLiveAt now).seconds) .hit,
        (e.load now key).2.afterHit now key coding s answer.isNew, none⟩
  /-- The producer fails. -/
  | failed {failure : ProduceFailure} (lacks : e.Lacks now key coding)
    (error : result = .error failure) :
    Outcome now e key coding result
      ⟨respondError .internalError, (e.load now key).2.counted, some key⟩
  /-- The body that the producer gives cannot be converted. -/
  | spoiled {p : Production} (lacks : e.Lacks now key coding) (ok : result = .ok p)
    (absent : (((e.load now key).2.shelf.add (p.represent now)).2.fetch
      ((e.load now key).2.shelf.add (p.represent now)).1 coding).1 = none) :
    Outcome now e key coding result
      ⟨respondError .internalError, (e.load now key).2.spoiled now p, some key⟩
  /-- The producer gives the answer. -/
  | made {p : Production} {answer : Bodies.Answer} (lacks : e.Lacks now key coding)
    (ok : result = .ok p)
    (fetched : (((e.load now key).2.shelf.add (p.represent now)).2.fetch
      ((e.load now key).2.shelf.add (p.represent now)).1 coding).1 = some answer) :
    Outcome now e key coding result
      ⟨respond key coding (p.represent now).details.headers answer.body
          ((e.load now key).2.counted.maxAge? p) .miss,
        (e.load now key).2.counted.afterMiss now key coding p, some key⟩

variable {H : Type} {resource : Resource H} {request : Request} {v : Variant H}

/-- **A request for a variant has one of four outcomes.** -/
theorem outcome_of_chosen (run : H → Request → CacheKey → Except ProduceFailure Production)
    (now : Instant) (chosen : e.Chosen resource request v coding) :
    Outcome now e (keyOf request v) coding (run v.handler request (keyOf request v))
      (e.serve now resource run request) := by
  by_cases lacks : e.Lacks now (keyOf request v) coding
  · rw [serve_of_chosen chosen, serveCached_of_lacks lacks]
    show Outcome _ _ _ _ _ ((e.load now (keyOf request v)).2.produce now (keyOf request v) coding
      (run v.handler request (keyOf request v)))
    cases result : run v.handler request (keyOf request v) with
    | error failure =>
      rw [produce_of_error rfl]
      exact .failed lacks rfl
    | ok p =>
      cases fetched : (((e.load now (keyOf request v)).2.shelf.add (p.represent now)).2.fetch
          ((e.load now (keyOf request v)).2.shelf.add (p.represent now)).1 coding).1 with
      | none =>
        rw [produce_of_none rfl fetched]
        exact .spoiled lacks rfl fetched
      | some answer =>
        rw [produce_of_some rfl fetched]
        exact .made lacks rfl fetched
  · obtain ⟨s, usable⟩ := Classical.not_forall.1 lacks
    obtain ⟨found, usable⟩ := Classical.not_imp.1 usable
    obtain ⟨answer, fetched⟩ := Option.ne_none_iff_exists'.1 usable
    rw [serve_of_answer run chosen found fetched]
    exact .replayed found fetched

end Engine
end VariantCache
