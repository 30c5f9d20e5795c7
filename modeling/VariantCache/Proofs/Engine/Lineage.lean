import VariantCache.Proofs.Engine.Provenance
import VariantCache.Proofs.Engine.Rendition

/-!
# Which production a response comes from

The productions of a session are numbered as they were made. A trace is a session in use
that keeps record, beside what the engine does, of the production that each place on the
shelf belongs to: while a request is answered all that is put on the shelf belongs to the
version that was found, or else to what the producer makes (`Trace.act`). Every response
with a representation is written down with the number of its production (`Reply`).

The record is right (`Trace.sound_runAt`): what is held under a key is a version of the
production that its place belongs to, and has nothing but renditions of it. So responses
from one production in one coding differ in nothing but how long they may be kept and
where they came from (`Trace.replies_alike`).
-/

namespace VariantCache

open Store Http

/-! ### The productions of a session -/

/-- The production that an event tells of. -/
def Event.origin? : Event → Option Origin
  | .produced key p date => some ⟨key, p, date⟩
  | .invalidated _ | .groupInvalidated _ => none

namespace Session

/-- The productions in the order in which they were made. -/
def productions (s : Session) : List Origin := s.log.reverse.filterMap Event.origin?

/-- The session when its clock shows a date. -/
def withClock (s : Session) (date : Instant) : Session := { s with now := date }

/-- The session after some steps, each taken at a date of its own. The clock may stand still, go on
or go back in between. -/
def runAt (s : Session) (steps : List (Instant × Move)) : Session :=
  steps.foldl (fun s step => (s.withClock step.1).step step.2) s

end Session

/-! ### Traces -/

/-- A response with a representation. -/
structure Reply where
  /-- The number of the production that it comes from. -/
  production : Nat
  /-- The coding that was chosen. -/
  coding : Coding
  date : Instant
  response : Response

/-- A session in use, with a record of where its versions come from. -/
structure Trace where
  session : Session
  /-- The number of the production that a place on the shelf belongs to. -/
  source : Nat → Nat
  /-- The responses with a representation, last first. -/
  replies : List Reply

namespace Trace

/-- The record begins. -/
def ofSession (s : Session) : Trace := ⟨s, fun _ => 0, []⟩

/-- The number of the production that answers a request for a key: that of the version which is
found, or else the next one. -/
def number (t : Trace) (key : CacheKey) : Nat :=
  match (t.session.engine.load t.session.now key).1 with
  | some s => t.source s.place
  | none => t.session.productions.length

/-- The places, when those that are new belong to a production. -/
def extended (t : Trace) (number place : Nat) : Nat :=
  if place < t.session.engine.shelf.bodies.size then t.source place else number

/-- The reply to a request, if the response has a representation. -/
def reply? {H : Type} (t : Trace) (resource : Resource H)
    (run : H → Request → CacheKey → Except ProduceFailure Production) (request : Request) :
    Option Reply :=
  let response := (t.session.serve resource run request).response
  match Negotiation.chooseVariant? resource request.accept request.acceptLanguage,
    Negotiation.chooseCoding? request.acceptEncoding t.session.engine.codings with
  | some v, some coding =>
    if response.status = .ok then
      some ⟨t.number (Engine.keyOf request v), coding, t.session.now, response⟩
    else none
  | _, _ => none

/-- The trace after a step at the date that the clock shows. -/
def act (t : Trace) : Move → Trace
  | .serve resource run request =>
    { session := t.session.step (.serve resource run request)
      source :=
        match Negotiation.chooseVariant? resource request.accept request.acceptLanguage with
        | some v => t.extended (t.number (Engine.keyOf request v))
        | none => t.source
      replies := (t.reply? resource run request).toList ++ t.replies }
  | move => { t with session := t.session.step move }

/-- The trace when the clock shows a date. -/
def withClock (t : Trace) (date : Instant) : Trace :=
  { t with session := t.session.withClock date }

/-- The trace after some steps, each taken at a date of its own. -/
def runAt (t : Trace) (steps : List (Instant × Move)) : Trace :=
  steps.foldl (fun t step => (t.withClock step.1).act step.2) t

theorem session_act (t : Trace) (move : Move) : (t.act move).session = t.session.step move := by
  cases move <;> rfl

/-- The record changes nothing of what happens. -/
theorem session_runAt (t : Trace) (steps : List (Instant × Move)) :
    (t.runAt steps).session = t.session.runAt steps := by
  unfold runAt Session.runAt
  induction steps generalizing t with
  | nil => rfl
  | cons step steps ih =>
    rw [List.foldl_cons, List.foldl_cons, ih, session_act]
    rfl

end Trace

/-! ### What belongs to a production -/

/-- What stands under a key is a version of the production that its place belongs to. -/
def Belongs (productions : List Origin) (source : Nat → Nat) (shelf : Shelf) (key : CacheKey)
    (s : Shared) : Prop :=
  ∃ o, productions[source s.place]? = some o ∧ o.key = key ∧ o.Keeps shelf s

namespace Belongs

variable {productions : List Origin} {source : Nat → Nat} {shelf larger : Shelf} {key : CacheKey}
  {s t : Shared} {coding : Coding}

theorem grows (g : shelf.Grows larger) (h : Belongs productions source shelf key s) :
    Belongs productions source larger key s := by
  obtain ⟨o, number, isKey, keeps⟩ := h
  exact ⟨o, number, isKey, keeps.grows g⟩

theorem fetch (h : Belongs productions source shelf key t) (real : coding.isReal = true) :
    Belongs productions source (shelf.fetch s coding).2 key t := by
  obtain ⟨o, number, isKey, keeps⟩ := h
  exact ⟨o, number, isKey, keeps.fetch real⟩

/-- More productions, and other places, make no difference. -/
theorem extend {extended : Nat → Nat} (h : Belongs productions source shelf key s)
    (more : List Origin) (same : ∀ place < shelf.bodies.size, extended place = source place) :
    Belongs (productions ++ more) extended shelf key s := by
  obtain ⟨o, number, isKey, keeps⟩ := h
  refine ⟨o, ?_, isKey, keeps⟩
  rw [same s.place keeps.place_lt]
  exact List.getElem?_append_left (List.getElem?_eq_some_iff.1 number).1 ▸ number

end Belongs

/-- The same, while the shelf has at least some size. -/
def BelongsSince (size : Nat) (productions : List Origin) (source : Nat → Nat) (shelf : Shelf)
    (key : CacheKey) (s : Shared) : Prop :=
  size ≤ shelf.bodies.size ∧ Belongs productions source shelf key s

/-- Copies of versions that belong to a production belong to it, where all new places do. -/
theorem copied_belongs {productions : List Origin} {source : Nat → Nat} {size number : Nat}
    (new : ∀ place, size ≤ place → source place = number) :
    Backend.Copied (BelongsSince size productions source) (fun t => source t.place = number) where
  grows g h := ⟨Nat.le_trans h.1 g.size_le, h.2.grows g⟩
  copy := by
    intro shelf key s h belongs
    obtain ⟨le, o, isNumber, isKey, keeps⟩ := h
    have place : source (shelf.copy s).1.place = number := new _ le
    refine ⟨⟨Nat.le_trans le (shelf.grows_copy s).size_le, o, ?_, isKey, keeps.copy⟩, place⟩
    rw [place, ← belongs]
    exact isNumber

theorem BelongsSince.fetch {size : Nat} {productions : List Origin} {source : Nat → Nat}
    {shelf : Shelf} {key : CacheKey} {s t : Shared} {coding : Coding}
    (h : BelongsSince size productions source shelf key t) (real : coding.isReal = true) :
    BelongsSince size productions source (shelf.fetch s coding).2 key t :=
  ⟨by simpa using h.1, h.2.fetch real⟩

/-- What a producer gives belongs to the production that it is. -/
theorem holdsOnly_afterMiss {productions : List Origin} {source : Nat → Nat} {size : Nat}
    {now : Instant} {e : Engine} {key : CacheKey} {p : Production} {number : Nat} {coding : Coding}
    (held : e.HoldsOnly (BelongsSince size productions source))
    (new : ∀ place, size ≤ place → source place = number) (larger : size ≤ e.shelf.bodies.size)
    (isNumber : productions[number]? = some ⟨key, p, now⟩)
    (hp : ∃ payload, p.HasPayload payload) (real : coding.isReal = true) :
    (e.afterMiss now key coding p).HoldsOnly (BelongsSince size productions source) := by
  have copied : Backend.Copied (BelongsSince size productions source) _ := copied_belongs new
  have grown := e.shelf.grows_add (p.represent now)
  have place : source (e.shelf.add (p.represent now)).1.place = number := new _ larger
  have added : BelongsSince size productions source (e.shelf.add (p.represent now)).2 key
      (e.shelf.add (p.represent now)).1 := by
    refine ⟨Nat.le_trans larger grown.size_le, ⟨key, p, now⟩, ?_, rfl, ?_⟩
    · rw [place]
      exact isNumber
    · exact Origin.keeps_add e.shelf hp
  refine held.afterMiss copied (fun k s since => ?_) fun _ => ⟨added.fetch real, place⟩
  exact BelongsSince.fetch (copied.grows grown since) real

/-- What a production gives in answer to a request: it is made, or it is replayed while it is
fresh. -/
inductive Origin.Feeds (o : Origin) : Reply → Prop where
  | made {number : Nat} {coding : Coding} {body : Bytes} {maxAge : Option Nat}
    (renders : o.production.Renders coding body) :
    o.Feeds ⟨number, coding, o.date,
      Engine.respond o.key coding o.details.headers body maxAge .miss⟩
  | replayed {number : Nat} {coding : Coding} {date : Instant} {body : Bytes}
    (renders : o.production.Renders coding body) (fresh : date ≤ o.expiration) :
    o.Feeds ⟨number, coding, date,
      Engine.respond o.key coding o.details.headers body
        (some (date.durationUntil o.expiration).seconds) .hit⟩

/-- **What a production gives in a coding is the same** but for how long it may be kept and where it
came from. -/
theorem Origin.Feeds.alike {o : Origin} {first second : Reply} (hf : o.Feeds first)
    (hs : o.Feeds second) (coding : first.coding = second.coding) :
    first.response.body = second.response.body ∧
      first.response.headers.without Engine.momentary =
        second.response.headers.without Engine.momentary := by
  have looks : ∀ {reply : Reply}, o.Feeds reply → ∃ body maxAge status,
      o.production.Renders reply.coding body ∧
      reply.response = Engine.respond o.key reply.coding o.details.headers body maxAge status := by
    intro reply h
    cases h with
    | made renders => exact ⟨_, _, _, renders, rfl⟩
    | replayed renders => exact ⟨_, _, _, renders, rfl⟩
  obtain ⟨body, maxAge, status, renders, response⟩ := looks hf
  obtain ⟨body', maxAge', status', renders', response'⟩ := looks hs
  rw [← coding] at renders' response'
  obtain rfl := renders.unique renders'
  rw [response, response']
  exact ⟨rfl, Engine.lasting_respond maxAge' status' body⟩

namespace Trace

/-- The record is right: what is held belongs to the production that it is said to belong to, and so
does what every reply gave. -/
structure Sound (t : Trace) : Prop where
  held : t.session.engine.HoldsOnly (Belongs t.session.productions t.source)
  fed : ∀ r ∈ t.replies, ∃ o, t.session.productions[r.production]? = some o ∧ o.Feeds r

variable {t : Trace} {H : Type} {resource : Resource H}
  {run : H → Request → CacheKey → Except ProduceFailure Production} {request : Request}
  {v : Variant H} {coding : Coding}

/-- Where no new place is looked at, the record stays. -/
theorem source_act (t : Trace) (move : Move) {place : Nat}
    (lt : place < t.session.engine.shelf.bodies.size) :
    (t.act move).source place = t.source place := by
  cases move with
  | serve resource run request =>
    simp only [act]
    cases Negotiation.chooseVariant? resource request.accept request.acceptLanguage with
    | none => rfl
    | some v => exact if_pos lt
  | invalidate | invalidateGroup | chore | tick => rfl

theorem productions_serve (s : Session) :
    (s.step (.serve resource run request)).productions = s.productions ++
      (((s.serve resource run request).events resource run request s.now).reverse.filterMap
        Event.origin?) := by
  show (((s.serve resource run request).events resource run request s.now) ++
    s.log).reverse.filterMap Event.origin? = _
  rw [List.reverse_append, List.filterMap_append]
  rfl

theorem reply?_eq_some_iff {r : Reply} :
    t.reply? resource run request = some r ↔
      ∃ v coding, t.session.engine.Chosen resource request v coding ∧
        (t.session.serve resource run request).response.status = .ok ∧
        r = ⟨t.number (Engine.keyOf request v), coding, t.session.now,
          (t.session.serve resource run request).response⟩ := by
  unfold reply?
  simp only
  constructor
  · intro h
    split at h
    · next v coding hv hc =>
      split at h
      · next ok => exact ⟨v, coding, ⟨hv, hc⟩, ok, (Option.some.inj h).symm⟩
      · cases h
    · cases h
  · rintro ⟨v, coding, ⟨hv, hc⟩, ok, rfl⟩
    rw [hv, hc]
    exact if_pos ok

/-- What comes in with a request. -/
theorem Sound.of_serve (h : t.Sound)
    (held : (t.session.serve resource run request).engine.HoldsOnly
      (Belongs (t.session.step (.serve resource run request)).productions
        (t.act (.serve resource run request)).source))
    (fed : ∀ r, t.reply? resource run request = some r →
      ∃ o, (t.session.step (.serve resource run request)).productions[r.production]? = some o ∧
        o.Feeds r) :
    (t.act (.serve resource run request)).Sound where
  held := held
  fed := by
    intro r hr
    rcases List.mem_append.1 hr with new | old
    · exact fed r (Option.mem_toList.1 new)
    · obtain ⟨o, number, feeds⟩ := h.fed r old
      refine ⟨o, ?_, feeds⟩
      show (t.session.step (.serve resource run request)).productions[r.production]? = some o
      rw [productions_serve]
      exact List.getElem?_append_left (List.getElem?_eq_some_iff.1 number).1 ▸ number

/-- A response that has no representation to send is not written down. -/
theorem reply?_of_status (failed : (t.session.serve resource run request).response.status ≠ .ok)
    (r : Reply) : t.reply? resource run request ≠ some r := by
  intro h
  obtain ⟨v, coding, -, ok, -⟩ := reply?_eq_some_iff.1 h
  exact failed ok

/-- The places while a request for a chosen variant is answered. -/
theorem source_serve (chosen : t.session.engine.Chosen resource request v coding) :
    (t.act (.serve resource run request)).source =
      t.extended (t.number (Engine.keyOf request v)) := by
  simp only [act, chosen.variant]

/-- A version that is found belongs to the production that answers the request. -/
theorem extended_place {key : CacheKey} {s : Shared}
    (found : (t.session.engine.load t.session.now key).1 = some s) :
    t.extended (t.number key) s.place = t.number key := by
  unfold extended number
  rw [found]
  split <;> rfl

theorem extended_of_le {number place : Nat} (le : t.session.engine.shelf.bodies.size ≤ place) :
    t.extended number place = number :=
  if_neg (Nat.not_lt.2 le)

/-- What is true of all versions while a request for a variant is answered: each belongs to a
production that is known when the answer is there. -/
abbrev Meanwhile (t : Trace) (resource : Resource H)
    (run : H → Request → CacheKey → Except ProduceFailure Production) (request : Request)
    (v : Variant H) : Shelf → CacheKey → Shared → Prop :=
  BelongsSince t.session.engine.shelf.bodies.size
    (t.session.step (.serve resource run request)).productions
    (t.extended (t.number (Engine.keyOf request v)))

/-- A version that is found feeds the response. -/
theorem Sound.serve_found (h : t.Sound) (chosen : t.session.engine.Chosen resource request v coding)
    {s : Shared}
    (found : (t.session.engine.load t.session.now (Engine.keyOf request v)).1 = some s)
    (held : (t.session.engine.load t.session.now (Engine.keyOf request v)).2.HoldsOnly
      (t.Meanwhile resource run request v))
    (belongs : t.Meanwhile resource run request v
      (t.session.engine.load t.session.now (Engine.keyOf request v)).2.shelf
      (Engine.keyOf request v) s) :
    (t.act (.serve resource run request)).Sound := by
  obtain ⟨o, isNumber, isKey, keeps⟩ := belongs.2
  obtain ⟨answer, hf, renders⟩ := keeps.exists_fetch chosen.isReal
  have served := Engine.serve_of_answer run chosen found hf
  rw [← Session.serve] at served
  refine h.of_serve ?_ fun r hr => ?_
  · rw [served, source_serve chosen]
    exact (held.afterHit (copied_belongs fun place => extended_of_le)
      (fun _ _ since => ⟨by simpa using since.1, since.2.fetch chosen.isReal⟩) belongs
      (extended_place found) answer.isNew).imp rfl fun _ _ => And.right
  · obtain ⟨v', coding', chosen', -, rfl⟩ := reply?_eq_some_iff.1 hr
    obtain ⟨rfl, rfl⟩ := chosen.unique chosen'
    rw [extended_place found] at isNumber
    refine ⟨o, isNumber, ?_⟩
    have fresh := Engine.le_expiration_of_load found
    rw [served, Details.timeToLiveAt, keeps.details, ← isKey]
    rw [keeps.details] at fresh
    exact .replayed renders fresh

/-- What a producer makes is the next production. -/
theorem productions_of_produced (chosen : t.session.engine.Chosen resource request v coding)
    {p : Production} (ok : run v.handler request (Engine.keyOf request v) = .ok p)
    (produced : (t.session.serve resource run request).produced =
      some (Engine.keyOf request v)) :
    (t.session.step (.serve resource run request)).productions =
      t.session.productions ++ [⟨Engine.keyOf request v, p, t.session.now⟩] := by
  rw [productions_serve]
  simp only [Served.events, chosen.variant, produced, ok]
  rfl

/-- Without a version the producer feeds the response. -/
theorem Sound.serve_missing (h : t.Sound)
    (chosen : t.session.engine.Chosen resource request v coding)
    (valid : Valid resource run request)
    (missing : (t.session.engine.load t.session.now (Engine.keyOf request v)).1 = none)
    (held : (t.session.engine.load t.session.now (Engine.keyOf request v)).2.HoldsOnly
      (t.Meanwhile resource run request v)) :
    (t.act (.serve resource run request)).Sound := by
  have served := Engine.serve_of_missing run chosen missing
  rw [← Session.serve] at served
  have counted : (t.session.engine.load t.session.now (Engine.keyOf request v)).2.counted.HoldsOnly
      (t.Meanwhile resource run request v) := held.imp rfl fun _ _ => id
  cases result : run v.handler request (Engine.keyOf request v) with
  | error failure =>
    rw [result, Engine.produce_of_error rfl] at served
    refine h.of_serve ?_ fun r hr => absurd hr (reply?_of_status ?_ r)
    · rw [served, source_serve chosen]
      exact counted.imp rfl fun _ _ => And.right
    · rw [served]
      intro ok
      cases ok
  | ok p =>
    obtain ⟨payload, hp⟩ := valid v (Negotiation.mem_of_chooseVariant? chosen.variant) _ p result
    have keeps := Origin.keeps_add (o := ⟨Engine.keyOf request v, p, t.session.now⟩)
      (t.session.engine.load t.session.now (Engine.keyOf request v)).2.shelf ⟨payload, hp⟩
    obtain ⟨answer, hf, renders⟩ := keeps.exists_fetch chosen.isReal
    rw [result, Engine.produce_of_some rfl hf] at served
    have productions := productions_of_produced chosen result (by rw [served])
    have isNumber : (t.session.step (.serve resource run request)).productions[
        t.number (Engine.keyOf request v)]? =
        some ⟨Engine.keyOf request v, p, t.session.now⟩ := by
      have next : t.number (Engine.keyOf request v) = t.session.productions.length := by
        unfold number
        rw [missing]
      rw [productions, next, List.getElem?_concat_length]
    refine h.of_serve ?_ fun r hr => ?_
    · rw [served, source_serve chosen]
      exact (holdsOnly_afterMiss counted (fun place => extended_of_le)
        (Engine.grows_load _ _ _).size_le isNumber ⟨payload, hp⟩ chosen.isReal).imp rfl
        fun _ _ => And.right
    · obtain ⟨v', coding', chosen', -, rfl⟩ := reply?_eq_some_iff.1 hr
      obtain ⟨rfl, rfl⟩ := chosen.unique chosen'
      refine ⟨_, isNumber, ?_⟩
      rw [served]
      exact .made renders

/-- **A request keeps the record right.** -/
theorem Sound.serve (h : t.Sound) (valid : Valid resource run request) :
    (t.act (.serve resource run request)).Sound := by
  have old : t.session.engine.HoldsOnly
      (BelongsSince t.session.engine.shelf.bodies.size
        (t.session.step (.serve resource run request)).productions
        (t.act (.serve resource run request)).source) := by
    refine h.held.imp rfl fun k s belongs => ⟨Nat.le_refl _, ?_⟩
    rw [productions_serve]
    exact belongs.extend _ fun place lt => source_act t _ lt
  by_cases chosen : ∃ v coding, t.session.engine.Chosen resource request v coding
  · obtain ⟨v, coding, chosen⟩ := chosen
    rw [source_serve chosen] at old
    have loaded := old.load (copied_belongs fun place => extended_of_le) fun s found =>
      extended_place found
    cases found : (t.session.engine.load t.session.now (Engine.keyOf request v)).1 with
    | some s => exact h.serve_found chosen found loaded.1 (loaded.2 s found)
    | none => exact h.serve_missing chosen valid found loaded.1
  · obtain ⟨response, -, backend, shelf, -⟩ :=
      Engine.serve_of_refused t.session.now run fun v coding h => chosen ⟨v, coding, h⟩
    refine h.of_serve (old.imp backend fun k s belongs => ?_) fun r hr => ?_
    · exact shelf ▸ belongs.2
    · refine absurd hr (reply?_of_status ?_ r)
      show (t.session.engine.serve t.session.now resource run request).response.status ≠ .ok
      rw [response]
      intro ok
      cases ok

/-! ### Runs -/

theorem Sound.act {move : Move} (h : t.Sound) (valid : move.IsValid) : (t.act move).Sound := by
  cases move with
  | serve resource run request => exact h.serve valid
  | invalidate key =>
    have same : (t.session.step (.invalidate key)).productions = t.session.productions := by
      simp [Session.productions, Session.step, Event.origin?]
    exact ⟨(h.held.invalidate key).imp rfl fun _ _ => same.symm ▸ id, same.symm ▸ h.fed⟩
  | invalidateGroup name =>
    have same : (t.session.step (.invalidateGroup name)).productions = t.session.productions := by
      simp [Session.productions, Session.step, Event.origin?]
    exact ⟨(h.held.invalidateGroup t.session.now name).imp rfl fun _ _ => same.symm ▸ id,
      same.symm ▸ h.fed⟩
  | chore path c => exact ⟨h.held.chore t.session.now path c, h.fed⟩
  | tick date => exact ⟨h.held, h.fed⟩

/-- At first nothing is held and nothing was replied. -/
theorem sound_ofSession {start : Session} (new : start.IsNew) : (ofSession start).Sound :=
  ⟨new.holdsOnly, fun _ hr => absurd hr List.not_mem_nil⟩

/-- **In every run the record is right**, whatever the clock shows. -/
theorem sound_runAt {steps : List (Instant × Move)} (h : t.Sound)
    (valid : ∀ step ∈ steps, step.2.IsValid) : (t.runAt steps).Sound := by
  unfold runAt
  induction steps generalizing t with
  | nil => exact h
  | cons step steps ih =>
    have clock : (t.withClock step.1).Sound := ⟨h.held, h.fed⟩
    exact ih (clock.act (valid step List.mem_cons_self)) fun s hs =>
      valid s (List.mem_cons_of_mem _ hs)

/-- Every response with a representation is written down. -/
theorem exists_reply (t : Trace)
    (ok : (t.session.serve resource run request).response.status = .ok) :
    ∃ r, (t.act (.serve resource run request)).replies = r :: t.replies ∧
      r.response = (t.session.serve resource run request).response := by
  by_cases chosen : ∃ v coding, t.session.engine.Chosen resource request v coding
  · obtain ⟨v, coding, chosen⟩ := chosen
    have written := reply?_eq_some_iff.2 ⟨v, coding, chosen, ok, rfl⟩
    refine ⟨⟨t.number (Engine.keyOf request v), coding, t.session.now,
      (t.session.serve resource run request).response⟩, ?_, rfl⟩
    show (t.reply? resource run request).toList ++ t.replies = _
    rw [written]
    rfl
  · obtain ⟨response, -⟩ :=
      Engine.serve_of_refused t.session.now run fun v coding h => chosen ⟨v, coding, h⟩
    rw [Session.serve, response] at ok
    cases ok

/-- **Responses from one production in one coding are alike**, in every run over every tree of
stores in which producers give streams of the codings that they declare: they have one body, and
one list of headers but for those that tell how long they may be kept and where they came from.
Every response with a representation is written down, and the production whose number stands
beside it feeds it. -/
theorem replies_alike {start : Session} (new : start.IsNew) {steps : List (Instant × Move)}
    (valid : ∀ step ∈ steps, step.2.IsValid) :
    (∀ {H : Type} (resource : Resource H)
      (run : H → Request → CacheKey → Except ProduceFailure Production) (request : Request),
      ((start.runAt steps).serve resource run request).response.status = .ok →
        ∃ r, (((ofSession start).runAt steps).act (.serve resource run request)).replies =
            r :: ((ofSession start).runAt steps).replies ∧
          r.response = ((start.runAt steps).serve resource run request).response) ∧
    ∀ first ∈ ((ofSession start).runAt steps).replies,
      ∀ second ∈ ((ofSession start).runAt steps).replies,
        first.production = second.production → first.coding = second.coding →
          (∃ o, (start.runAt steps).productions[first.production]? = some o ∧ o.Feeds first ∧
            o.Feeds second) ∧
          first.response.body = second.response.body ∧
          first.response.headers.without Engine.momentary =
            second.response.headers.without Engine.momentary := by
  have session : ((ofSession start).runAt steps).session = start.runAt steps :=
    session_runAt _ steps
  have sound := sound_runAt (sound_ofSession new) valid
  refine ⟨fun resource run request ok => ?_, fun first hf second hs production coding => ?_⟩
  · rw [← session] at ok ⊢
    exact exists_reply _ ok
  · obtain ⟨o, isNumber, feedsFirst⟩ := sound.fed first hf
    obtain ⟨o', isNumber', feedsSecond⟩ := sound.fed second hs
    rw [← production, isNumber] at isNumber'
    obtain rfl := Option.some.inj isNumber'
    rw [session] at isNumber
    exact ⟨⟨o, isNumber, feedsFirst, feedsSecond⟩, feedsFirst.alike feedsSecond coding⟩

/-! ### An example -/

/-- An engine over a map above two tiers. -/
def overNested : Session where
  engine := .ofBackend (some (.tiered
    [.leaf (.map (.empty (.ofSeconds 10))),
      .tiered [.leaf (.bounded (.empty ⟨1000, 2⟩ (.ofSeconds 10))),
        .leaf (.map (.empty (.ofSeconds 10)))]]))
  now := ⟨0, 0, Duration.zero.nanos_lt⟩
  log := []

theorem isNew_overNested : overNested.IsNew := by
  refine ⟨rfl, fun b hb => ?_⟩
  obtain rfl := Option.some.inj hb
  intro l hl
  simp only [Backend.leaves, Backend.leavesOf, List.cons_append, List.nil_append, List.append_nil,
    List.mem_cons, List.not_mem_nil, or_false] at hl
  rcases hl with rfl | rfl | rfl
  · exact ⟨_, rfl⟩
  · exact ⟨_, _, rfl⟩
  · exact ⟨_, rfl⟩

/-- A request for the greeting in some coding, some seconds after the start. -/
def greetingAt (seconds : Int) (acceptEncoding : Option String) : Instant × Move :=
  (⟨seconds, 0, Duration.zero.nanos_lt⟩,
    .serve [⟨"", "", "", ()⟩] (fun _ _ _ => .ok Session.greeting)
      ⟨"/", none, none, none, acceptEncoding⟩)

/-- The greeting is asked for in gzip, without a coding, and in gzip again. -/
def greetedInTurn : List (Instant × Move) :=
  [greetingAt 0 (some "gzip"), greetingAt 30 none, greetingAt 20 (some "gzip")]

theorem valid_greetedInTurn : ∀ step ∈ greetedInTurn, step.2.IsValid := by
  have valid (seconds : Int) (acceptEncoding : Option String) :
      (greetingAt seconds acceptEncoding).2.IsValid := by
    rintro v - key p hp
    obtain rfl := Except.ok.inj hp
    exact ⟨_, rfl⟩
  intro step hm
  simp only [greetedInTurn, List.mem_cons, List.not_mem_nil, or_false] at hm
  rcases hm with rfl | rfl | rfl
  · exact valid 0 (some "gzip")
  · exact valid 30 none
  · exact valid 20 (some "gzip")

/-- The response of the producer and the one from the cache are alike. -/
theorem replies_alike_greeting :
    ∃ first second, ((ofSession overNested).runAt greetedInTurn).replies[2]? = some first ∧
      ((ofSession overNested).runAt greetedInTurn).replies[0]? = some second ∧
      first.response.SaysCache .miss ∧ second.response.SaysCache .hit ∧
      first.response.body = second.response.body ∧
      first.response.headers.without Engine.momentary =
        second.response.headers.without Engine.momentary := by
  have asked :
      (((ofSession overNested).runAt greetedInTurn).replies.map fun r =>
        (r.production, r.coding, r.response.headers.first? Engine.cacheStatusHeader)) =
      [(0, .gzip, some (Bytes.ofString "HIT")), (0, .identity, some (Bytes.ofString "HIT")),
        (0, .gzip, some (Bytes.ofString "MISS"))] := by
    decide +kernel
  have alike := (replies_alike isNew_overNested valid_greetedInTurn).2
  generalize ((ofSession overNested).runAt greetedInTurn).replies = replies at *
  obtain ⟨second, rest, rfl, later, asked⟩ := List.map_eq_cons_iff.1 asked
  obtain ⟨between, rest, rfl, -, asked⟩ := List.map_eq_cons_iff.1 asked
  obtain ⟨first, rest, rfl, earlier, -⟩ := List.map_eq_cons_iff.1 asked
  simp only [Prod.mk.injEq] at earlier later
  obtain ⟨number, coding, miss⟩ := earlier
  obtain ⟨number', coding', hit⟩ := later
  refine ⟨first, second, rfl, rfl, miss, hit, (alike first ?_ second ?_ ?_ ?_).2⟩
  · simp
  · simp
  · rw [number, number']
  · rw [coding, coding']

end Trace
end VariantCache
