import VariantCache.Proofs.Engine.Session

/-!
# Where an answer from the cache comes from

Every answer from the cache is one production for the same key, made earlier in the run
to be stored and fresh still: its headers are replayed, its payload is the body, and its
expiration says how long the response may be kept (`hit_of_one_production`). The tree of
stores may be any: bounded stores may drop what they are given, give up entries, and
apply their queues late; tiers may hold versions of different productions and copy them.
-/

namespace VariantCache

open Store Http

namespace Session

/-- **Every answer from the cache comes from one production for its key**, in every run over every
tree of stores in which producers give streams of the codings that they declare. And no store
holds a version of anything else: what stands or waits under a key has the groups, the headers,
the expiration and the payload of one production for that key. -/
theorem hit_of_one_production {start : Session} (new : start.IsNew) {moves : List Move}
    (valid : ∀ move ∈ moves, move.IsValid) :
    (∀ b, (start.run moves).engine.backend = some b → ∀ l ∈ b.leaves, ∀ key t,
      l.Holds (start.run moves).now key t →
        ∃ p date payload, (start.run moves).made key p date ∧
          VersionOf p date payload (start.run moves).engine.shelf t) ∧
    ∀ {H : Type} (resource : Resource H)
      (run : H → Request → CacheKey → Except ProduceFailure Production)
      (request : Request), ((start.run moves).serve resource run request).response.SaysCache .hit →
      ∃ v coding p date payload body,
        (start.run moves).engine.Chosen resource request v coding ∧
        (start.run moves).made (Engine.keyOf request v) p date ∧
        (start.run moves).now ≤ date.addSaturating p.lifetime ∧
        p.HasPayload payload ∧
        ((start.run moves).serve resource run request).produced = none ∧
        ((start.run moves).serve resource run request).response =
          Engine.respond (Engine.keyOf request v) coding (p.represent date).details.headers body
            (some ((start.run moves).now.durationUntil (date.addSaturating p.lifetime)).seconds)
            .hit ∧
        ((start.run moves).serve resource run request).response.plain? = some payload := by
  have sound := sound_run new.sound valid
  refine ⟨fun b hb l hl key t ht => sound b hb l hl key t ht, fun resource run request hit => ?_⟩
  generalize start.run moves = s at *
  unfold serve at *
  by_cases chosen : ∃ v coding, s.engine.Chosen resource request v coding
  · obtain ⟨v, coding, chosen⟩ := chosen
    cases found : (s.engine.load s.now (Engine.keyOf request v)).1 with
    | none =>
      rw [Engine.serve_of_missing run chosen found] at hit
      exact absurd hit (Engine.not_saysCache_produce _)
    | some t =>
      have version := (sound.load (Engine.keyOf request v)).2 t found
      obtain ⟨answer, p, date, payload, isMade, details, hp, decodes, served⟩ :=
        Engine.serve_of_found run chosen found version
      have fresh := Engine.le_expiration_of_load found
      rw [details, Production.expiration_represent] at fresh
      rw [details] at served
      refine ⟨v, coding, p, date, payload, answer.body, chosen, isMade, fresh, hp, ?_, ?_, ?_⟩
      · rw [served]
      · rw [served]
        rfl
      · rw [served]
        exact Engine.plain?_respond decodes Production.not_transport_represent
  · obtain ⟨response, -⟩ :=
      Engine.serve_of_refused s.now run fun v coding h => chosen ⟨v, coding, h⟩
    rw [response] at hit
    exact absurd hit (Engine.not_saysCache_respondError _ _)

/-- An engine over two tiers, a bounded store over a map. -/
def overTiers : Session where
  engine := .ofBackend (some (.tiered
    [.leaf (.bounded (.empty ⟨1000, 2⟩ (.ofSeconds 10))), .leaf (.map (.empty (.ofSeconds 10)))]))
  now := ⟨0, 0, Duration.zero.nanos_lt⟩
  log := []

/-- The greeting comes from the cache when it is asked for again, in another coding. -/
theorem hit_of_greeting :
    ((overTiers.run greeted).serve [⟨"", "", "", ()⟩] (fun _ _ _ => .ok greeting)
      ⟨"/", none, none, none, some "gzip"⟩).response.SaysCache .hit ∧
    ∃ (v : Variant Unit) (p : Production) (date : Instant) (payload : Bytes),
      (overTiers.run greeted).made (Engine.keyOf ⟨"/", none, none, none, some "gzip"⟩ v) p date ∧
      p.HasPayload payload ∧
      ((overTiers.run greeted).serve [⟨"", "", "", ()⟩] (fun _ _ _ => .ok greeting)
        ⟨"/", none, none, none, some "gzip"⟩).response.plain? = some payload := by
  have new : overTiers.IsNew := by
    refine ⟨rfl, fun b hb => ?_⟩
    obtain rfl := Option.some.inj hb
    exact Backend.allOf_cons.2 ⟨Backend.all_leaf.2 ⟨_, _, rfl⟩, Backend.allOf_cons.2
      ⟨Backend.all_leaf.2 ⟨_, rfl⟩, Backend.allOf_nil⟩⟩
  have hit : ((overTiers.run greeted).serve [⟨"", "", "", ()⟩] (fun _ _ _ => .ok greeting)
      ⟨"/", none, none, none, some "gzip"⟩).response.SaysCache .hit := by
    unfold Response.SaysCache
    decide +kernel
  obtain ⟨v, -, p, date, payload, -, -, isMade, -, hp, -, -, plain⟩ :=
    (hit_of_one_production new valid_greeted).2 _ _ _ hit
  exact ⟨hit, v, p, date, payload, isMade, hp, plain⟩

end Session
end VariantCache
