import VariantCache.Proofs.Engine.Serving

/-!
# Engines in use

A session is an engine in use, with the clock and a log of what happened: which
productions were made for which keys and when, and what was invalidated. Requests for any
resource are answered by any producers, keys and groups are invalidated, the stores do
their chores, and the clock goes on, never back.
-/

namespace VariantCache

open Store Http

/-! ### Sessions -/

/-- Something that matters for what a cache should answer. -/
inductive Event where
  | produced (key : CacheKey) (p : Production) (date : Instant)
  | invalidated (key : CacheKey)
  | groupInvalidated (name : String)

/-- An engine in use. -/
structure Session where
  engine : Engine
  now : Instant
  /-- What happened, last first. -/
  log : List Event

/-- One step of the use of an engine. -/
inductive Move : Type 1 where
  | serve {H : Type} (resource : Resource H)
    (run : H → Request → CacheKey → Except ProduceFailure Production) (request : Request)
  | invalidate (key : CacheKey)
  | invalidateGroup (name : String)
  /-- A chore of the part of the backend at a path, if there is one. -/
  | chore (path : List Nat) (c : Chore)
  /-- The clock is set, but never back. -/
  | tick (date : Instant)

/-- What producers give is a stream of the coding that they declare. -/
def Move.IsValid : Move → Prop
  | serve resource run request => Valid resource run request
  | invalidate _ | invalidateGroup _ | chore _ _ | tick _ => True

/-- What a producer gave for a request that was served. -/
def Served.events {H : Type} (served : Served) (resource : Resource H)
    (run : H → Request → CacheKey → Except ProduceFailure Production) (request : Request)
    (now : Instant) :
    List Event :=
  match Negotiation.chooseVariant? resource request.accept request.acceptLanguage,
    served.produced with
  | some v, some key =>
    match run v.handler request key with
    | .ok p => [.produced key p now]
    | .error _ => []
  | _, _ => []

namespace Session

/-- The answer to a request. -/
def serve {H : Type} (s : Session) (resource : Resource H)
    (run : H → Request → CacheKey → Except ProduceFailure Production) (request : Request) :
    Served :=
  s.engine.serve s.now resource run request

/-- The session after a step. -/
def step (s : Session) : Move → Session
  | .serve resource run request =>
    let served := s.serve resource run request
    { s with engine := served.engine, log := served.events resource run request s.now ++ s.log }
  | .invalidate key =>
    { s with engine := s.engine.invalidate key, log := .invalidated key :: s.log }
  | .invalidateGroup name =>
    { s with engine := s.engine.invalidateGroup s.now name, log := .groupInvalidated name :: s.log }
  | .chore path c => { s with engine := s.engine.chore s.now path c }
  | .tick date => { s with now := s.now.later date }

/-- The session after some steps. -/
def run (s : Session) (moves : List Move) : Session := moves.foldl step s

/-- The session begins: nothing happened, and nothing was stored. -/
structure IsNew (s : Session) : Prop where
  log : s.log = []
  backend : ∀ b, s.engine.backend = some b → b.All Leaf.IsNew

/-- The productions that were made to be stored. -/
def made (s : Session) : Made :=
  fun key p date => .produced key p date ∈ s.log ∧ p.lifetime.isZero = false

end Session

/-! ### Soundness -/

namespace Session

variable {s : Session}

/-- At first nothing is held. -/
theorem IsNew.holdsOnly {V : Shelf → CacheKey → Shared → Prop} (h : s.IsNew) :
    s.engine.HoldsOnly V := by
  intro b hb l hl k t _ ht
  have new := h.backend b hb l hl
  cases l with
  | map m =>
    obtain ⟨period, rfl⟩ := new
    rcases ht with ht | ht <;> cases ht
  | bounded b =>
    obtain ⟨limits, period, rfl⟩ := new
    rcases ht with ht | ht <;> cases ht

theorem IsNew.sound (h : s.IsNew) : s.engine.Sound s.made := h.holdsOnly

/-- What was made before a step was made after it. -/
theorem made_step {key : CacheKey} {p : Production} {date : Instant} (move : Move)
    (h : s.made key p date) :
    (s.step move).made key p date := by
  refine ⟨?_, h.2⟩
  cases move with
  | serve resource run request => exact List.mem_append_right _ h.1
  | invalidate | invalidateGroup => exact List.mem_cons_of_mem _ h.1
  | chore | tick => exact h.1

theorem sound_step {move : Move} (h : s.engine.Sound s.made) (valid : move.IsValid) :
    (s.step move).engine.Sound (s.step move).made := by
  have old : ∀ k p date, s.made k p date → (s.step move).made k p date :=
    fun _ _ _ => made_step move
  cases move with
  | serve resource run request =>
    refine h.serve valid old fun v p hv produced result lasts => ⟨List.mem_append_left _ ?_, lasts⟩
    simp only [Served.events, Session.serve, hv, produced, result, List.mem_singleton]
  | invalidate key => exact Engine.Sound.mono (h.holdsOnly.invalidate key) old
  | invalidateGroup name => exact Engine.Sound.mono (h.holdsOnly.invalidateGroup s.now name) old
  | chore path c => exact Engine.Sound.mono (h.holdsOnly.chore s.now path c) old
  | tick date => exact h

/-- **In every run the engine is sound**: what its backend holds was made for the key. -/
theorem sound_run {moves : List Move} (h : s.engine.Sound s.made)
    (valid : ∀ move ∈ moves, move.IsValid) :
    (s.run moves).engine.Sound (s.run moves).made := by
  unfold run
  induction moves generalizing s with
  | nil => exact h
  | cons move moves ih =>
    exact ih (sound_step h (valid move List.mem_cons_self)) fun m hm =>
      valid m (List.mem_cons_of_mem _ hm)

/-! ### An example -/

/-- A greeting that is fresh for a minute. -/
def greeting : Production :=
  ⟨[("etag", "1")], [0x68, 0x69], .identity, ["greetings"], .ofSeconds 60⟩

/-- A greeting is asked for, and half a minute goes by. -/
def greeted : List Move :=
  [.serve [⟨"", "", "", ()⟩] (fun _ _ _ => .ok greeting) (.ofPath "/"),
    .tick ⟨30, 0, Duration.zero.nanos_lt⟩]

theorem valid_greeted : ∀ move ∈ greeted, move.IsValid := by
  intro move hm
  rcases List.mem_cons.1 hm with rfl | hm
  · rintro v - key p hp
    obtain rfl := Except.ok.inj hp
    exact ⟨_, rfl⟩
  · obtain rfl := List.mem_singleton.1 hm
    trivial

end Session
end VariantCache
