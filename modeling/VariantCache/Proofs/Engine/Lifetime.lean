import VariantCache.Proofs.Engine.Headers
import VariantCache.Proofs.Time

/-!
# How long responses may be kept

A production that is stored is fresh until its lifetime is over, and no longer, whatever
becomes of it: versions of it may be stored again with more bodies, wait in a queue, be
copied into other tiers and be swept, and all of them keep the expiration that the first
had. So a response from the cache comes before that date, and says how much of the lifetime
is left (`Origin.Limits`): the seconds that the responses from one production say get fewer
and fewer (`lifetime_never_extended`).
-/

namespace VariantCache

open Store Http

/-! ### What a response says -/

namespace Http.Response

/-- The response says that it may be kept for so many seconds. -/
def LastsFor (r : Response) (seconds : Nat) : Prop :=
  r.headers.values "cache-control" = [Bytes.ofString (Engine.cacheControl (some seconds))]

end Http.Response

theorem Engine.lastsFor_respond {key : CacheKey} {coding : Coding} {body : Bytes} {seconds : Nat}
    {status : CacheStatus} (stored : List Field) :
    (respond key coding stored body (some seconds) status).LastsFor seconds :=
  cacheControl_respond stored

/-! ### What a production allows -/

namespace Origin

variable {o : Origin} {backed : Bool} {r earlier : Reply}

/-- A production is fresh for its lifetime, but not beyond the latest date. -/
theorem toNanos_expiration (o : Origin) :
    o.expiration.toNanos =
      min (o.date.toNanos + o.production.lifetime.toNanos) Instant.latest.toNanos :=
  o.date.toNanos_addSaturating o.production.lifetime

/-- A reply keeps to the lifetime of its production. One from the cache comes before the expiration,
and says how many whole seconds are left; one from the producer says the whole lifetime, if the
production is stored. -/
structure Limits (o : Origin) (backed : Bool) (r : Reply) : Prop where
  status : r.response.SaysCache .hit ∨ r.response.SaysCache .miss
  since : o.date ≤ r.date
  hit : r.response.SaysCache .hit → o.isKept backed = true ∧ r.date ≤ o.expiration ∧
    ∃ left : Nat, r.response.LastsFor left ∧
      (left : Int) = (o.expiration.toNanos - r.date.toNanos) / nanosPerSecond
  miss : r.response.SaysCache .miss → r.date = o.date ∧
    (o.isKept backed = true →
      r.response.LastsFor (o.production.lifetime.toNanos / nanosPerSecond))

theorem Gives.limits (h : o.Gives backed r) : o.Limits backed r := by
  cases h with
  | made =>
    refine ⟨.inr Engine.saysCache_respond, o.date.le_refl, fun hit => ?_, fun _ => ⟨rfl, ?_⟩⟩
    · cases Engine.saysCache_unique hit Engine.saysCache_respond
    · intro kept
      rw [← Duration.seconds_eq, if_pos kept]
      exact Engine.lastsFor_respond _
  | replayed kept since fresh =>
    refine ⟨.inl Engine.saysCache_respond, since, fun _ => ⟨kept, fresh, ?_⟩, fun miss => ?_⟩
    · exact ⟨_, Engine.lastsFor_respond _, Instant.seconds_durationUntil fresh⟩
    · cases Engine.saysCache_unique miss Engine.saysCache_respond

/-- **The seconds get fewer**: a reply from the cache does not say more of them than any reply from
the same production before. -/
theorem Gives.lastsFor_le (h : o.Gives backed r) (h' : o.Gives backed earlier)
    (le : earlier.date ≤ r.date) (hit : r.response.SaysCache .hit) :
    ∃ left more : Nat, r.response.LastsFor left ∧ earlier.response.LastsFor more ∧ left ≤ more := by
  cases h with
  | made => cases Engine.saysCache_unique hit Engine.saysCache_respond
  | replayed kept since fresh =>
    cases h' with
    | made =>
      rw [if_pos kept]
      exact ⟨_, _, Engine.lastsFor_respond _, Engine.lastsFor_respond _,
        Instant.seconds_durationUntil_le_lifetime since o.production.lifetime⟩
    | replayed =>
      exact ⟨_, _, Engine.lastsFor_respond _, Engine.lastsFor_respond _,
        Instant.seconds_durationUntil_le le o.expiration⟩

end Origin

/-! ### Runs -/

namespace Session

/-- A step makes no production another one. -/
theorem productions_prefix_step (s : Session) (move : Move) :
    s.productions <+: (s.step move).productions := by
  cases move with
  | serve resource run request =>
    rw [Trace.productions_serve]
    exact List.prefix_append _ _
  | invalidate | invalidateGroup => simp [productions, step, Event.origin?]
  | chore | tick => exact List.prefix_refl _

theorem run_append (s : Session) (moves more : List Move) :
    s.run (moves ++ more) = (s.run moves).run more := List.foldl_append

/-- In a run the productions keep their numbers. -/
theorem productions_prefix_run (s : Session) (moves : List Move) :
    s.productions <+: (s.run moves).productions := by
  unfold run
  induction moves generalizing s with
  | nil => exact List.prefix_refl _
  | cons move moves ih => exact (s.productions_prefix_step move).trans (ih _)

end Session

namespace Trace

variable {t : Trace} {backed : Bool}

theorem followAll_append (t : Trace) (moves more : List Move) :
    t.followAll (moves ++ more) = (t.followAll moves).followAll more := List.foldl_append

/-- No lifetime was extended: all versions that are held, in tables and in queues, have the
expiration of the production that their place belongs to, and all replies keep to it. -/
structure KeepsLifetimes (t : Trace) (backed : Bool) : Prop where
  held : ∀ b, t.session.engine.backend = some b → ∀ l ∈ b.leaves, ∀ key s {date},
    l.Holds date key s → ∃ o, t.session.productions[t.source s.place]? = some o ∧ o.key = key ∧
      o.isKept backed = true ∧ s.details.expiration = o.expiration
  replied : ∀ r ∈ t.replies, ∃ o, t.session.productions[r.production]? = some o ∧ o.Limits backed r
  falling : t.replies.Pairwise fun r earlier => r.production = earlier.production →
    r.response.SaysCache .hit → earlier.date ≤ r.date ∧
      ∃ left more : Nat, r.response.LastsFor left ∧ earlier.response.LastsFor more ∧ left ≤ more

theorem Faithful.keepsLifetimes (h : t.Faithful backed) : t.KeepsLifetimes backed where
  held b hb l hl key s date holds := by
    obtain ⟨-, o, isNumber, isKey, details, lasts⟩ := h.held b hb l hl key s holds
    have isBacked : backed = true := by rw [← h.isBacked, hb]; rfl
    refine ⟨o, isNumber, isKey, ?_, congrArg Details.expiration details⟩
    rw [Origin.isKept, isBacked, lasts]
    rfl
  replied r mem := by
    obtain ⟨o, isNumber, gives⟩ := h.given r mem
    exact ⟨o, isNumber, gives.limits⟩
  falling := by
    refine h.ordered.imp_of_mem fun {r earlier} mem mem' le same hit => ⟨le, ?_⟩
    obtain ⟨o, isNumber, gives⟩ := h.given r mem
    obtain ⟨o', isNumber', gives'⟩ := h.given earlier mem'
    rw [← same, isNumber] at isNumber'
    obtain rfl := Option.some.inj isNumber'
    exact gives.lastsFor_le gives' le hit

/-- **A lifetime is never extended**, in any run over any tree of stores, whatever producers give:
what is held has the expiration that its production had when it was made, responses from the cache
come before it and say what is left, and what responses from one production say falls. Every
response with a representation is written down, with the number of the production that gives it;
and neither the number of a production nor the production that a place belongs to ever changes. -/
theorem lifetime_never_extended {start : Session} (new : start.IsNew) (moves : List Move) :
    ((ofSession start).followAll moves).session = start.run moves ∧
    ((ofSession start).followAll moves).KeepsLifetimes start.engine.backend.isSome ∧
    (∀ o : Origin, o.expiration.toNanos =
      min (o.date.toNanos + o.production.lifetime.toNanos) Instant.latest.toNanos) ∧
    (∀ {H : Type} (resource : Resource H)
      (run : H → Request → CacheKey → Except ProduceFailure Production) (request : Request),
      ((start.run moves).serve resource run request).response.status = .ok →
        ∃ r, (((ofSession start).followAll moves).follow (.serve resource run request)).replies =
            r :: ((ofSession start).followAll moves).replies ∧
          r.date = (start.run moves).now ∧
          r.response = ((start.run moves).serve resource run request).response) ∧
    ∀ more : List Move,
      (start.run moves).productions <+: (start.run (moves ++ more)).productions ∧
      ∀ place < (start.run moves).engine.shelf.bodies.size,
        ((ofSession start).followAll (moves ++ more)).source place =
          ((ofSession start).followAll moves).source place := by
  have session : ((ofSession start).followAll moves).session = start.run moves :=
    session_followAll _ moves
  have faithful := faithful_followAll (faithful_ofSession new) moves
  refine ⟨session, faithful.keepsLifetimes, Origin.toNanos_expiration,
    fun resource run request ok => ?_, fun more => ⟨?_, fun place lt => ?_⟩⟩
  · rw [← session] at ok ⊢
    exact exists_note _ ok
  · rw [Session.run_append]
    exact (start.run moves).productions_prefix_run more
  · rw [← session] at lt
    rw [followAll_append]
    exact source_followAll _ more lt

/-- The greeting is asked for three times, in two codings; in between the stores do their work. -/
def greetedAgain : List Move :=
  [.chore [] .start, (greetingAt 0 none).2, .chore [] .wait, .tick ⟨10, 0, Duration.zero.nanos_lt⟩,
    (greetingAt 10 (some "gzip")).2, .chore [1] .sweep, .tick ⟨40, 500, by decide⟩,
    (greetingAt 40 (some "gzip")).2]

/-- The last response says no more seconds than the first. -/
theorem lifetime_of_greeting :
    ∃ first last, ((ofSession overNested).followAll greetedAgain).replies[2]? = some first ∧
      ((ofSession overNested).followAll greetedAgain).replies[0]? = some last ∧
      first.response.SaysCache .miss ∧ last.response.SaysCache .hit ∧
      ∃ left more : Nat, last.response.LastsFor left ∧ first.response.LastsFor more ∧
        left ≤ more := by
  have asked : (((ofSession overNested).followAll greetedAgain).replies.map fun r =>
        (r.production, r.response.headers.first? Engine.cacheStatusHeader)) =
      [(0, some (Bytes.ofString "HIT")), (0, some (Bytes.ofString "HIT")),
        (0, some (Bytes.ofString "MISS"))] := by
    decide +kernel
  have falling := (lifetime_never_extended isNew_overNested greetedAgain).2.1.falling
  generalize ((ofSession overNested).followAll greetedAgain).replies = replies at *
  obtain ⟨last, rest, rfl, later, asked⟩ := List.map_eq_cons_iff.1 asked
  obtain ⟨between, rest, rfl, -, asked⟩ := List.map_eq_cons_iff.1 asked
  obtain ⟨first, rest, rfl, earlier, -⟩ := List.map_eq_cons_iff.1 asked
  obtain ⟨number, hit⟩ := Prod.mk.inj later
  obtain ⟨number', miss⟩ := Prod.mk.inj earlier
  have falls := (List.pairwise_cons.1 falling).1 first (by simp)
  exact ⟨first, last, rfl, rfl, miss, hit, (falls (number.trans number'.symm) hit).2⟩

end Trace
end VariantCache
