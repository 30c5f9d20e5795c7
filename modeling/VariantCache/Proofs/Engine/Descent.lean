import VariantCache.Proofs.Engine.Lineage
import VariantCache.Proofs.Engine.Outcome

/-!
# What descends from a production

Producers may give bodies that are no streams of the coding that they declare. A version of
such a production may be found and turn out to be of no use, and then the producer runs
again, although the look into the cache may have put copies of the old version on the shelf.
`Trace.follow` keeps record of that too: the copies belong to the version that was found,
and all that comes after them to what the producer makes.

The record is right in every run, whatever producers give (`Trace.faithful_followAll`): what
is held under a key, in a table or in a queue, has the details of the production that its
place belongs to, and every response with a representation is what that production gives
(`Origin.Gives`).
-/

namespace VariantCache

open Store Http

/-! ### What a production gives -/

namespace Origin

/-- The production is stored by an engine that has a backend, if it is fresh for some time. -/
def isKept (o : Origin) (backed : Bool) : Bool := backed && !o.production.lifetime.isZero

/-- What a production gives in answer to a request to an engine with a backend or without one: it is
made, or it is replayed while it is fresh. -/
inductive Gives (o : Origin) (backed : Bool) : Reply → Prop where
  | made {number : Nat} {coding : Coding} {body : Bytes} :
    o.Gives backed ⟨number, coding, o.date,
      Engine.respond o.key coding o.details.headers body
        (if o.isKept backed then some o.production.lifetime.seconds else none) .miss⟩
  | replayed {number : Nat} {coding : Coding} {date : Instant} {body : Bytes}
    (kept : o.isKept backed = true) (since : o.date ≤ date) (fresh : date ≤ o.expiration) :
    o.Gives backed ⟨number, coding, date,
      Engine.respond o.key coding o.details.headers body
        (some (date.durationUntil o.expiration).seconds) .hit⟩

end Origin

/-! ### What is held -/

/-- What stands under a key descends from the production that its place belongs to: it has the
details of it, and the production is fresh for some time. -/
structure Descends (productions : List Origin) (source : Nat → Nat) (shelf : Shelf) (key : CacheKey)
    (s : Shared) : Prop where
  place_lt : s.place < shelf.bodies.size
  exists_origin : ∃ o, productions[source s.place]? = some o ∧ o.key = key ∧
    s.details = o.details ∧ o.production.lifetime.isZero = false

namespace Descends

variable {productions : List Origin} {source : Nat → Nat} {shelf larger : Shelf} {key : CacheKey}
  {s : Shared}

/-- The bodies on the shelf make no difference. -/
theorem of_size_le (le : shelf.bodies.size ≤ larger.bodies.size)
    (h : Descends productions source shelf key s) : Descends productions source larger key s :=
  ⟨Nat.lt_of_lt_of_le h.place_lt le, h.exists_origin⟩

/-- More productions, and other places, make no difference. -/
theorem extend {extended : Nat → Nat} (h : Descends productions source shelf key s)
    (more : List Origin) (same : ∀ place < shelf.bodies.size, extended place = source place) :
    Descends (productions ++ more) extended shelf key s := by
  obtain ⟨place_lt, o, number, isOrigin⟩ := h
  refine ⟨place_lt, o, ?_, isOrigin⟩
  rw [same s.place place_lt]
  exact List.getElem?_append_left (List.getElem?_eq_some_iff.1 number).1 ▸ number

end Descends

/-- The same, while the shelf has at least some size. -/
def DescendsSince (size : Nat) (productions : List Origin) (source : Nat → Nat) (shelf : Shelf)
    (key : CacheKey) (s : Shared) : Prop :=
  size ≤ shelf.bodies.size ∧ Descends productions source shelf key s

/-- Copies of what descends from a production descend from it, where all new places belong to it. -/
theorem copied_descends {productions : List Origin} {source : Nat → Nat} {size number : Nat}
    (new : ∀ place, size ≤ place → source place = number) :
    Backend.Copied (DescendsSince size productions source) (fun t => source t.place = number) where
  grows g h := ⟨Nat.le_trans h.1 g.size_le, h.2.of_size_le g.size_le⟩
  copy := by
    intro shelf key s h belongs
    obtain ⟨le, -, o, isNumber, isOrigin⟩ := h
    have place : source (shelf.copy s).1.place = number := new _ le
    refine ⟨⟨Nat.le_trans le (shelf.grows_copy s).size_le, shelf.place_copy_lt s, o, ?_, isOrigin⟩,
      place⟩
    rw [place, ← belongs]
    exact isNumber

theorem DescendsSince.fetch {size : Nat} {productions : List Origin} {source : Nat → Nat}
    {shelf : Shelf} {key : CacheKey} {s t : Shared} {coding : Coding}
    (h : DescendsSince size productions source shelf key t) :
    DescendsSince size productions source (shelf.fetch s coding).2 key t :=
  ⟨by simpa using h.1, h.2.of_size_le (by simp)⟩

/-- What a producer gives descends from the production that it is. -/
theorem descends_afterMiss {productions : List Origin} {source : Nat → Nat} {size : Nat}
    {now : Instant} {e : Engine} {key : CacheKey} {p : Production} {number : Nat} {coding : Coding}
    (held : e.HoldsOnly (DescendsSince size productions source))
    (new : ∀ place, size ≤ place → source place = number) (larger : size ≤ e.shelf.bodies.size)
    (isNumber : productions[number]? = some ⟨key, p, now⟩) :
    (e.afterMiss now key coding p).HoldsOnly (DescendsSince size productions source) := by
  have copied : Backend.Copied (DescendsSince size productions source) _ := copied_descends new
  have grown := e.shelf.grows_add (p.represent now)
  have place : source (e.shelf.add (p.represent now)).1.place = number := new _ larger
  refine held.afterMiss copied (fun k s since => (copied.grows grown since).fetch) fun lasts => ?_
  have added : DescendsSince size productions source (e.shelf.add (p.represent now)).2 key
      (e.shelf.add (p.represent now)).1 := by
    refine ⟨Nat.le_trans larger grown.size_le, by simp [Shelf.add], ⟨key, p, now⟩, ?_, rfl, rfl,
      lasts⟩
    rw [place]
    exact isNumber
  exact ⟨added.fetch, place⟩

/-! ### The record -/

namespace Trace

/-- The number of the production that a response comes from: the version that is found gives it,
unless the producer runs. -/
def giver (t : Trace) (key : CacheKey) (served : Served) : Nat :=
  match served.produced with
  | none => t.number key
  | some _ => t.session.productions.length

/-- The size of the shelf when the backend has been asked for a key. -/
def sizeAfterLoad (t : Trace) (key : CacheKey) : Nat :=
  (t.session.engine.load t.session.now key).2.shelf.bodies.size

/-- The places after a request for a key. What the backend puts on the shelf when it is asked are
copies of the version that it finds. -/
def settled (t : Trace) (key : CacheKey) (served : Served) (place : Nat) : Nat :=
  if place < t.sizeAfterLoad key then t.extended (t.number key) place else t.giver key served

/-- The reply to a request, if the response has a representation, with the number of the production
that gives it. -/
def note? {H : Type} (t : Trace) (resource : Resource H)
    (run : H → Request → CacheKey → Except ProduceFailure Production) (request : Request) :
    Option Reply :=
  match Negotiation.chooseVariant? resource request.accept request.acceptLanguage with
  | none => none
  | some v =>
    (t.reply? resource run request).map fun r =>
      { r with
        production := t.giver (Engine.keyOf request v) (t.session.serve resource run request) }

/-- The trace after a step, whatever producers give. -/
def follow (t : Trace) : Move → Trace
  | .serve resource run request =>
    { session := t.session.step (.serve resource run request)
      source :=
        match Negotiation.chooseVariant? resource request.accept request.acceptLanguage with
        | some v => t.settled (Engine.keyOf request v) (t.session.serve resource run request)
        | none => t.source
      replies := (t.note? resource run request).toList ++ t.replies }
  | move => { t with session := t.session.step move }

/-- The trace after some steps. -/
def followAll (t : Trace) (moves : List Move) : Trace := moves.foldl follow t

theorem session_follow (t : Trace) (move : Move) :
    (t.follow move).session = t.session.step move := by
  cases move <;> rfl

/-- The record changes nothing of what happens. -/
theorem session_followAll (t : Trace) (moves : List Move) :
    (t.followAll moves).session = t.session.run moves := by
  unfold followAll Session.run
  induction moves generalizing t with
  | nil => rfl
  | cons move moves ih => rw [List.foldl_cons, List.foldl_cons, ih, session_follow]

/-- The record is right, in a session with a backend or without one: what is held descends from the
production that it is said to descend from, and so does every reply; and the dates of all of them
have come, one after the other. -/
structure Faithful (t : Trace) (backed : Bool) : Prop where
  isBacked : t.session.engine.backend.isSome = backed
  held : t.session.engine.HoldsOnly (Descends t.session.productions t.source)
  given : ∀ r ∈ t.replies, ∃ o, t.session.productions[r.production]? = some o ∧ o.Gives backed r
  made : ∀ o ∈ t.session.productions, o.date ≤ t.session.now
  past : ∀ r ∈ t.replies, r.date ≤ t.session.now
  ordered : t.replies.Pairwise fun later earlier => earlier.date ≤ later.date

end Trace

/-! ### Engines with a backend -/

namespace Engine

variable {now : Instant} {e : Engine} {key : CacheKey} {coding : Coding} {s : Shared}

theorem isSome_load : (e.load now key).2.backend.isSome = e.backend.isSome := by
  unfold Engine.load
  split
  · rfl
  · next h => rw [h]; rfl

theorem isSome_store : (e.store now key s).backend.isSome = e.backend.isSome := by
  unfold Engine.store
  split
  · rfl
  · next h => rw [h]; rfl

/-- What is found is found in a backend. -/
theorem isSome_of_load (h : (e.load now key).1 = some s) : e.backend.isSome = true := by
  unfold Engine.load at h
  split at h
  · cases h
  · next hb => rw [hb]; rfl

/-- A request leaves an engine with a backend, or without one. -/
theorem Outcome.isSome {result : Except ProduceFailure Production} {served : Served}
    (outcome : Outcome now e key coding result served) :
    served.engine.backend.isSome = e.backend.isSome := by
  cases outcome with
  | @replayed s answer found fetched =>
    show ((e.load now key).2.afterHit now key coding s answer.isNew).backend.isSome = _
    unfold afterHit
    simp only
    split
    · rw [isSome_store, isSome_load]
    · exact isSome_load
  | failed => exact isSome_load
  | spoiled => exact isSome_load
  | @made p answer lacks ok fetched =>
    show ((e.load now key).2.counted.afterMiss now key coding p).backend.isSome = _
    unfold afterMiss
    simp only
    split
    · rw [isSome_store]
      exact isSome_load
    · exact isSome_load

theorem size_le_store (e : Engine) (s : Shared) :
    e.shelf.bodies.size ≤ (e.store now key s).shelf.bodies.size := by
  unfold Engine.store
  cases e.backend with
  | none => exact Nat.le_refl _
  | some b => exact (Backend.grows_store now key s e.shelf b).size_le

theorem size_le_afterHit (e : Engine) (isNew : Bool) :
    e.shelf.bodies.size ≤ (e.afterHit now key coding s isNew).shelf.bodies.size := by
  rw [← Shelf.size_fetch e.shelf s coding]
  unfold afterHit
  simp only
  split
  · exact size_le_store { e with shelf := (e.shelf.fetch s coding).2 } s
  · exact Nat.le_refl _

theorem size_le_afterMiss (e : Engine) (p : Production) :
    e.shelf.bodies.size ≤ (e.afterMiss now key coding p).shelf.bodies.size := by
  have added := (e.shelf.grows_add (p.represent now)).size_le
  rw [← Shelf.size_fetch (e.shelf.add (p.represent now)).2 (e.shelf.add (p.represent now)).1
    coding] at added
  refine Nat.le_trans added ?_
  unfold afterMiss
  simp only
  split
  · exact size_le_store { e with shelf := ((e.shelf.add (p.represent now)).2.fetch _ coding).2 } _
  · exact Nat.le_refl _

/-- A request takes nothing off the shelf. -/
theorem Outcome.size_le {result : Except ProduceFailure Production} {served : Served}
    (outcome : Outcome now e key coding result served) :
    e.shelf.bodies.size ≤ served.engine.shelf.bodies.size := by
  refine Nat.le_trans (e.grows_load now key).size_le ?_
  cases outcome with
  | replayed => exact size_le_afterHit _ _
  | failed => exact Nat.le_refl _
  | spoiled => exact (Shelf.grows_add _ _).size_le
  | @made p => exact size_le_afterMiss (e.load now key).2.counted p

end Engine

namespace Session

variable {s : Session}

/-- Nothing is ever taken off the shelf. -/
theorem size_le_step (move : Move) :
    s.engine.shelf.bodies.size ≤ (s.step move).engine.shelf.bodies.size := by
  cases move with
  | @serve H resource run request =>
    show _ ≤ (s.engine.serve s.now resource run request).engine.shelf.bodies.size
    by_cases chosen : ∃ v coding, s.engine.Chosen resource request v coding
    · obtain ⟨v, coding, chosen⟩ := chosen
      exact (Engine.outcome_of_chosen run s.now chosen).size_le
    · obtain ⟨-, -, -, shelf, -⟩ :=
        Engine.serve_of_refused s.now run fun v coding h => chosen ⟨v, coding, h⟩
      exact Nat.le_of_eq (congrArg (·.bodies.size) shelf).symm
  | invalidate | invalidateGroup | chore | tick => exact Nat.le_refl _

theorem isSome_step (move : Move) :
    (s.step move).engine.backend.isSome = s.engine.backend.isSome := by
  cases move with
  | @serve H resource run request =>
    show (s.engine.serve s.now resource run request).engine.backend.isSome = _
    by_cases chosen : ∃ v coding, s.engine.Chosen resource request v coding
    · obtain ⟨v, coding, chosen⟩ := chosen
      exact (Engine.outcome_of_chosen run s.now chosen).isSome
    · rw [(Engine.serve_of_refused s.now run fun v coding h => chosen ⟨v, coding, h⟩).2.2.1]
  | invalidate | invalidateGroup | chore => exact Option.isSome_map
  | tick => rfl

end Session

/-! ### One request -/

namespace Trace

variable {t : Trace} {key : CacheKey} {coding : Coding}
  {result : Except ProduceFailure Production} {served : Served} {productions more : List Origin}

/-- The places that were there keep the productions that they belong to. -/
theorem settled_of_lt {place : Nat} (lt : place < t.session.engine.shelf.bodies.size) :
    t.settled key served place = t.source place := by
  have grown : _ ≤ t.sizeAfterLoad key := (t.session.engine.grows_load t.session.now key).size_le
  rw [settled, if_pos (Nat.lt_of_lt_of_le lt grown), extended, if_pos lt]

theorem settled_of_le {place : Nat} (le : t.sizeAfterLoad key ≤ place) :
    t.settled key served place = t.giver key served :=
  if_neg (Nat.not_lt.2 le)

variable (key served more) in
/-- What is held when the backend has been asked for a key, and the version that it has found,
descend from the productions. -/
theorem descends_load
    (held : t.session.engine.HoldsOnly (Descends t.session.productions t.source)) :
    (t.session.engine.load t.session.now key).2.HoldsOnly
        (DescendsSince (t.sizeAfterLoad key) (t.session.productions ++ more)
          (t.settled key served)) ∧
      ∀ s, (t.session.engine.load t.session.now key).1 = some s →
        t.settled key served s.place = t.number key ∧
        DescendsSince (t.sizeAfterLoad key) (t.session.productions ++ more) (t.settled key served)
          (t.session.engine.load t.session.now key).2.shelf key s := by
  have old : t.session.engine.HoldsOnly
      (DescendsSince t.session.engine.shelf.bodies.size (t.session.productions ++ more)
        (t.extended (t.number key))) :=
    held.imp rfl fun k s descends => ⟨Nat.le_refl _, descends.extend more fun _ lt => if_pos lt⟩
  have loaded := old.load (copied_descends fun place => extended_of_le) fun s found =>
    extended_place found
  -- All that the backend holds by now has a place that the look into it has reached.
  have since {k : CacheKey} {s : Shared}
      (h : DescendsSince t.session.engine.shelf.bodies.size (t.session.productions ++ more)
        (t.extended (t.number key)) (t.session.engine.load t.session.now key).2.shelf k s) :
      t.settled key served s.place = t.extended (t.number key) s.place ∧
      DescendsSince (t.sizeAfterLoad key) (t.session.productions ++ more) (t.settled key served)
        (t.session.engine.load t.session.now key).2.shelf k s := by
    have same : t.settled key served s.place = t.extended (t.number key) s.place :=
      if_pos h.2.place_lt
    refine ⟨same, Nat.le_refl _, h.2.place_lt, ?_⟩
    rw [same]
    exact h.2.exists_origin
  refine ⟨loaded.1.imp rfl fun _ _ h => (since h).2, fun s found => ?_⟩
  obtain ⟨same, descends⟩ := since (loaded.2 s found)
  exact ⟨same.trans (extended_place found), descends⟩

/-- **A request leaves nothing in the backend that does not descend from a production.** -/
theorem descends_outcome
    (outcome : Engine.Outcome t.session.now t.session.engine key coding result served)
    (held : t.session.engine.HoldsOnly (Descends t.session.productions t.source))
    (new : ∀ p, served.produced = some key → result = .ok p →
      more = [⟨key, p, t.session.now⟩]) :
    served.engine.HoldsOnly
      (Descends (t.session.productions ++ more) (t.settled key served)) := by
  have loaded := descends_load key served more held
  have copied (number : Nat) (giver : t.giver key served = number) :
      Backend.Copied (DescendsSince (t.sizeAfterLoad key) (t.session.productions ++ more)
        (t.settled key served)) fun s => t.settled key served s.place = number :=
    copied_descends fun place le => (settled_of_le le).trans giver
  suffices since : served.engine.HoldsOnly (DescendsSince (t.sizeAfterLoad key)
      (t.session.productions ++ more) (t.settled key served)) from since.imp rfl fun _ _ => And.right
  cases outcome with
  | @replayed s answer found fetched =>
    obtain ⟨place, descends⟩ := loaded.2 s found
    exact loaded.1.afterHit (copied (t.number key) rfl) (fun _ _ => .fetch) descends place
      answer.isNew
  | failed lacks error => exact loaded.1.imp rfl fun _ _ => id
  | spoiled lacks ok absent =>
    exact loaded.1.imp rfl fun _ _ => (copied _ rfl).grows (Shelf.grows_add _ _)
  | @made p answer lacks ok fetched =>
    have counted : (t.session.engine.load t.session.now key).2.counted.HoldsOnly _ :=
      loaded.1.imp rfl fun _ _ => id
    refine descends_afterMiss counted (fun place le => settled_of_le le) (Nat.le_refl _) ?_
    rw [new p rfl ok]
    exact List.getElem?_concat_length

/-- **A response with a representation is what a production gives**: the one whose number stands
beside it. -/
theorem gives_outcome
    (outcome : Engine.Outcome t.session.now t.session.engine key coding result served)
    (held : t.session.engine.HoldsOnly (Descends t.session.productions t.source))
    (made : ∀ o ∈ t.session.productions ++ more, o.date ≤ t.session.now)
    (new : ∀ p, served.produced = some key → result = .ok p → more = [⟨key, p, t.session.now⟩])
    (ok : served.response.status = .ok) :
    ∃ o, (t.session.productions ++ more)[t.giver key served]? = some o ∧
      o.Gives t.session.engine.backend.isSome
        ⟨t.giver key served, coding, t.session.now, served.response⟩ := by
  have loaded := descends_load key served more held
  cases outcome with
  | @replayed s answer found fetched =>
    obtain ⟨place, -, -, o, isNumber, rfl, details, lasts⟩ := loaded.2 s found
    rw [place] at isNumber
    refine ⟨o, isNumber, ?_⟩
    have kept : o.isKept t.session.engine.backend.isSome = true := by
      rw [Origin.isKept, Engine.isSome_of_load found, lasts]
      rfl
    have fresh := Engine.le_expiration_of_load found
    rw [details] at fresh
    simp only [details]
    exact .replayed kept (made o (List.mem_of_getElem? isNumber)) fresh
  | failed | spoiled => cases ok
  | @made p answer lacks isOk fetched =>
    refine ⟨⟨key, p, t.session.now⟩, ?_, ?_⟩
    · rw [new p rfl isOk]
      exact List.getElem?_concat_length
    · have backed : (t.session.engine.load t.session.now key).2.counted.backend.isSome =
          t.session.engine.backend.isSome := Engine.isSome_load
      simp only [Engine.maxAge?, backed]
      exact .made

variable {H : Type} {resource : Resource H}
  {run : H → Request → CacheKey → Except ProduceFailure Production} {request : Request}
  {v : Variant H}

theorem note?_eq_some_iff {r : Reply} :
    t.note? resource run request = some r ↔
      ∃ v coding, t.session.engine.Chosen resource request v coding ∧
        (t.session.serve resource run request).response.status = .ok ∧
        r = ⟨t.giver (Engine.keyOf request v) (t.session.serve resource run request), coding,
          t.session.now, (t.session.serve resource run request).response⟩ := by
  unfold note?
  split
  · next hv =>
    constructor
    · intro h
      cases h
    · rintro ⟨v, coding, chosen, -⟩
      exact nomatch hv.symm.trans chosen.variant
  · next v hv =>
    simp only [Option.map_eq_some_iff, reply?_eq_some_iff]
    constructor
    · rintro ⟨_, ⟨v', coding, chosen, ok, rfl⟩, rfl⟩
      obtain rfl := Option.some.inj (hv.symm.trans chosen.variant)
      exact ⟨v, coding, chosen, ok, rfl⟩
    · rintro ⟨v', coding, chosen, ok, rfl⟩
      obtain rfl := Option.some.inj (hv.symm.trans chosen.variant)
      exact ⟨_, ⟨v, coding, chosen, ok, rfl⟩, rfl⟩

/-- The places that were there keep the productions that they belong to, whatever happens. -/
theorem source_follow (t : Trace) (move : Move) {place : Nat}
    (lt : place < t.session.engine.shelf.bodies.size) :
    (t.follow move).source place = t.source place := by
  cases move with
  | serve resource run request =>
    simp only [follow]
    cases Negotiation.chooseVariant? resource request.accept request.acceptLanguage with
    | none => rfl
    | some v => exact settled_of_lt lt
  | invalidate | invalidateGroup | chore | tick => rfl

/-- So it is in a run too. -/
theorem source_followAll (t : Trace) (moves : List Move) {place : Nat}
    (lt : place < t.session.engine.shelf.bodies.size) :
    (t.followAll moves).source place = t.source place := by
  unfold followAll
  induction moves generalizing t with
  | nil => rfl
  | cons move moves ih =>
    have grown : place < (t.follow move).session.engine.shelf.bodies.size := by
      rw [session_follow]
      exact Nat.lt_of_lt_of_le lt (Session.size_le_step move)
    rw [List.foldl_cons, ih _ grown, source_follow t move lt]

/-- What is made in answer to a request is made now. -/
theorem date_of_mem_events {o : Origin} (served : Served)
    (h : o ∈ (served.events resource run request t.session.now).reverse.filterMap Event.origin?) :
    o.date = t.session.now := by
  unfold Served.events at h
  split at h
  · split at h
    · obtain rfl : o = ⟨_, _, t.session.now⟩ := by simpa [Event.origin?] using h
      rfl
    · cases h
  · cases h

/-- The productions that a request adds. -/
abbrev added {H : Type} (t : Trace) (resource : Resource H)
    (run : H → Request → CacheKey → Except ProduceFailure Production) (request : Request) :
    List Origin :=
  ((t.session.serve resource run request).events resource run request
    t.session.now).reverse.filterMap Event.origin?

/-- What the producer makes is all that is added. -/
theorem added_of_produced (chosen : t.session.engine.Chosen resource request v coding)
    (p : Production)
    (produced : (t.session.serve resource run request).produced = some (Engine.keyOf request v))
    (ok : run v.handler request (Engine.keyOf request v) = .ok p) :
    t.added resource run request = [⟨Engine.keyOf request v, p, t.session.now⟩] := by
  have productions := productions_of_produced chosen ok produced
  rw [productions_serve] at productions
  exact List.append_cancel_left productions

/-- What is added is made now. -/
theorem made_serve (made : ∀ o ∈ t.session.productions, o.date ≤ t.session.now) :
    ∀ o ∈ t.session.productions ++ t.added resource run request, o.date ≤ t.session.now := by
  intro o mem
  rcases List.mem_append.1 mem with old | new
  · exact made o old
  · rw [date_of_mem_events _ new]
    exact t.session.now.le_refl

variable {backed : Bool}

/-- What is held after a request descends from the productions. -/
theorem Faithful.held_serve (h : t.Faithful backed) :
    (t.follow (.serve resource run request)).session.engine.HoldsOnly
      (Descends (t.session.productions ++ t.added resource run request)
        (t.follow (.serve resource run request)).source) := by
  by_cases chosen : ∃ v coding, t.session.engine.Chosen resource request v coding
  · obtain ⟨v, coding, chosen⟩ := chosen
    have outcome := Engine.outcome_of_chosen run t.session.now chosen
    simp only [follow, chosen.variant]
    exact descends_outcome outcome h.held (added_of_produced chosen)
  · obtain ⟨-, -, backend, shelf, -⟩ :=
      Engine.serve_of_refused t.session.now run fun v coding h => chosen ⟨v, coding, h⟩
    refine h.held.imp backend fun k s descends => ?_
    show Descends _ _ (t.session.engine.serve t.session.now resource run request).engine.shelf k s
    rw [shelf]
    exact descends.extend _ fun place lt => source_follow t _ lt

/-- The reply to a request is what a production gives. -/
theorem Faithful.given_serve (h : t.Faithful backed) {r : Reply}
    (noted : t.note? resource run request = some r) :
    r.date = t.session.now ∧
      ∃ o, (t.session.productions ++ t.added resource run request)[r.production]? = some o ∧
        o.Gives backed r := by
  obtain ⟨v, coding, chosen, ok, rfl⟩ := note?_eq_some_iff.1 noted
  have outcome := Engine.outcome_of_chosen run t.session.now chosen
  refine ⟨rfl, ?_⟩
  rw [← h.isBacked]
  exact gives_outcome outcome h.held (made_serve h.made) (added_of_produced chosen) ok

/-- **A request keeps the record right.** -/
theorem Faithful.serve (h : t.Faithful backed) :
    (t.follow (.serve resource run request)).Faithful backed := by
  have productions :
      (t.follow (.serve resource run request)).session.productions =
        t.session.productions ++ t.added resource run request := productions_serve t.session
  constructor
  case isBacked => exact (Session.isSome_step _).trans h.isBacked
  case held => exact productions ▸ h.held_serve
  case given =>
    rw [productions]
    intro r mem
    rcases List.mem_append.1 mem with new | old
    · exact (h.given_serve (Option.mem_toList.1 new)).2
    · obtain ⟨o, isNumber, gives⟩ := h.given r old
      exact ⟨o, List.getElem?_append_left (List.getElem?_eq_some_iff.1 isNumber).1 ▸ isNumber, gives⟩
  case made => exact productions ▸ made_serve h.made
  case past =>
    intro r mem
    rcases List.mem_append.1 mem with new | old
    · exact (h.given_serve (Option.mem_toList.1 new)).1 ▸ r.date.le_refl
    · exact h.past r old
  case ordered =>
    show ((t.note? resource run request).toList ++ t.replies).Pairwise _
    cases noted : t.note? resource run request with
    | none => exact h.ordered
    | some r =>
      refine List.pairwise_cons.2 ⟨fun earlier mem => ?_, h.ordered⟩
      rw [(h.given_serve noted).1]
      exact h.past earlier mem

/-! ### Runs -/

/-- What brings nothing in, and makes no time pass backwards, keeps the record right. -/
theorem Faithful.of_session {session : Session} (h : t.Faithful backed)
    (isBacked : session.engine.backend.isSome = t.session.engine.backend.isSome)
    (productions : session.productions = t.session.productions)
    (held : session.engine.HoldsOnly (Descends t.session.productions t.source))
    (later : t.session.now ≤ session.now) : { t with session }.Faithful backed where
  isBacked := isBacked.trans h.isBacked
  held := productions ▸ held
  given := productions ▸ h.given
  made o mem := Instant.le_trans (h.made o (productions ▸ mem)) later
  past r mem := Instant.le_trans (h.past r mem) later
  ordered := h.ordered

theorem Faithful.follow (h : t.Faithful backed) (move : Move) : (t.follow move).Faithful backed := by
  have isBacked := Session.isSome_step (s := t.session) move
  cases move with
  | serve resource run request => exact h.serve
  | invalidate key =>
    have same : (t.session.step (.invalidate key)).productions = t.session.productions := by
      simp [Session.productions, Session.step, Event.origin?]
    exact h.of_session isBacked same ((h.held.invalidate key).imp rfl fun _ _ => id)
      (Instant.le_refl _)
  | invalidateGroup name =>
    have same : (t.session.step (.invalidateGroup name)).productions = t.session.productions := by
      simp [Session.productions, Session.step, Event.origin?]
    exact h.of_session isBacked same
      ((h.held.invalidateGroup t.session.now name).imp rfl fun _ _ => id) (Instant.le_refl _)
  | chore path c =>
    exact h.of_session isBacked rfl (h.held.chore t.session.now path c) (Instant.le_refl _)
  | tick date => exact h.of_session isBacked rfl h.held (t.session.now.le_later date)

/-- At first nothing is held, and nothing was replied. -/
theorem faithful_ofSession {start : Session} (new : start.IsNew) :
    (ofSession start).Faithful start.engine.backend.isSome where
  isBacked := rfl
  held := new.holdsOnly
  given _ mem := absurd mem List.not_mem_nil
  made o mem := by
    have none : start.productions = [] := by simp [Session.productions, new.log]
    exact absurd (none ▸ mem) List.not_mem_nil
  past _ mem := absurd mem List.not_mem_nil
  ordered := List.Pairwise.nil

/-- **In every run the record is right**, whatever producers give. -/
theorem faithful_followAll (h : t.Faithful backed) (moves : List Move) :
    (t.followAll moves).Faithful backed := by
  unfold followAll
  induction moves generalizing t with
  | nil => exact h
  | cons move moves ih => exact ih (h.follow move)

/-- Every response with a representation is written down. -/
theorem exists_note (t : Trace)
    (ok : (t.session.serve resource run request).response.status = .ok) :
    ∃ r, (t.follow (.serve resource run request)).replies = r :: t.replies ∧
      r.date = t.session.now ∧
      r.response = (t.session.serve resource run request).response := by
  by_cases chosen : ∃ v coding, t.session.engine.Chosen resource request v coding
  · obtain ⟨v, coding, chosen⟩ := chosen
    obtain ⟨r, noted, date, response⟩ : ∃ r, t.note? resource run request = some r ∧
        r.date = t.session.now ∧ r.response = (t.session.serve resource run request).response :=
      ⟨_, note?_eq_some_iff.2 ⟨v, coding, chosen, ok, rfl⟩, rfl, rfl⟩
    refine ⟨r, ?_, date, response⟩
    show (t.note? resource run request).toList ++ t.replies = _
    rw [noted]
    rfl
  · obtain ⟨response, -⟩ :=
      Engine.serve_of_refused t.session.now run fun v coding h => chosen ⟨v, coding, h⟩
    rw [Session.serve, response] at ok
    cases ok

end Trace
end VariantCache
