import VariantCache.Proofs.Backend.SingleStore
import VariantCache.Proofs.Engine.Session
import VariantCache.Proofs.Store.Map

/-!
# An engine over a map is a map from keys to productions

The abstract cache has for every key the last production that was made to be stored,
unless the key or one of the groups of the production was invalidated since
(`standing?`), and answers with it while it is fresh (`current?`). An engine over a map
store does just that in every run (`serve_refines`): expired entries are evicted on the
way, bodies are converted and stored again, and sweeps prune the index of groups, but
what a load finds under a key is always a version of what the abstract cache has
(`Mirrors`).
-/

namespace VariantCache

open Store Http

/-! ### The abstract cache -/

/-- The production belongs to a group. The empty name is no group. -/
def Production.isIn (p : Production) (name : String) : Bool := name != "" && p.groups.contains name

/-- The last production that was made to be stored under a key, if neither the key nor a group of
the production was invalidated since. -/
def standing? (key : CacheKey) : List Event → Option (Production × Instant)
  | [] => none
  | .produced k p date :: rest =>
    if key = k ∧ p.lifetime.isZero = false then some (p, date) else standing? key rest
  | .invalidated k :: rest => if key = k then none else standing? key rest
  | .groupInvalidated name :: rest => (standing? key rest).filter fun made => !made.1.isIn name

/-- The standing production of a key while it is fresh. -/
def current? (now : Instant) (log : List Event) (key : CacheKey) : Option (Production × Instant) :=
  (standing? key log).filter fun made => now ≤ made.2.addSaturating made.1.lifetime

variable {now later : Instant} {log : List Event} {key k : CacheKey} {p : Production}

theorem current?_later (le : now ≤ later) :
    current? later log k =
      (current? now log k).filter fun made => later ≤ made.2.addSaturating made.1.lifetime := by
  ext made
  simp only [current?, Option.filter_eq_some_iff, decide_eq_true_iff]
  exact ⟨fun h => ⟨⟨h.1, Instant.le_trans le h.2⟩, h.2⟩, fun h => ⟨h.1.1, h.2⟩⟩

theorem current?_invalidated :
    current? now (.invalidated key :: log) k = if k = key then none else current? now log k := by
  rw [current?, standing?, current?]
  split <;> rfl

theorem current?_groupInvalidated (name : String) :
    current? now (.groupInvalidated name :: log) k =
      (current? now log k).filter fun made => !made.1.isIn name := by
  ext made
  simp only [current?, standing?, Option.filter_eq_some_iff]
  exact ⟨fun h => ⟨⟨h.1.1, h.2⟩, h.1.2⟩, fun h => ⟨⟨h.1.1, h.2⟩, h.1.2⟩⟩

theorem current?_produced (lasts : p.lifetime.isZero = false) :
    current? now (.produced key p now :: log) k =
      if k = key then
        (some (p, now)).filter (fun made => now ≤ made.2.addSaturating made.1.lifetime)
      else current? now log k := by
  rw [current?, standing?, current?]
  by_cases h : k = key
  · rw [if_pos h, if_pos ⟨h, lasts⟩]
  · rw [if_neg h, if_neg fun both => h both.1]

/-- What is not to be stored makes no difference. -/
theorem current?_produced_of_isZero (zero : p.lifetime.isZero = true) :
    current? now (.produced key p now :: log) k = current? now log k := by
  unfold current?
  rw [standing?, if_neg fun both => Bool.noConfusion (zero.symm.trans both.2)]

/-! ### What mirrors it -/

/-- A stored version is of a production. -/
def IsVersion (shelf : Shelf) (made : Production × Instant) (s : Shared) : Prop :=
  ∃ payload, VersionOf made.1 made.2 payload shelf s

/-- What a load finds is a version of what the abstract cache has, under every key. -/
def Mirrors (now : Instant) (log : List Event) (shelf : Shelf) (m : MapStore) : Prop :=
  ∀ k, Option.Rel (IsVersion shelf) (current? now log k) (m.load now k).1

theorem rel_filter {α β : Type} {r : α → β → Prop} {a : Option α} {b : Option β} {p : α → Bool}
    {q : β → Bool} (h : Option.Rel r a b) (same : ∀ x y, r x y → p x = q y) :
    Option.Rel r (a.filter p) (b.filter q) := by
  cases h with
  | none => exact .none
  | some hr =>
    rename_i x y
    rw [Option.filter_some, Option.filter_some, same x y hr]
    split
    · exact .some hr
    · exact .none

theorem rel_imp {α β : Type} {r w : α → β → Prop} {a : Option α} {b : Option β}
    (h : Option.Rel r a b) (weaker : ∀ x y, r x y → w x y) : Option.Rel w a b := by
  cases h with
  | none => exact .none
  | some hr => exact .some (weaker _ _ hr)

variable {shelf larger : Shelf} {m : MapStore} {s : Shared} {coding : Coding} {payload : Bytes}

theorem Mirrors.congr {m' : MapStore} (h : Mirrors now log shelf m)
    (same : ∀ k, (m'.load now k).1 = (m.load now k).1) : Mirrors now log shelf m' := by
  intro k
  rw [same k]
  exact h k

theorem Mirrors.grows (h : Mirrors now log shelf m) (g : shelf.Grows larger) :
    Mirrors now log larger m :=
  fun k => rel_imp (h k) fun _ _ ⟨payload, v⟩ =>
    ⟨payload, v.hasPayload, v.details, v.carries.grows g⟩

theorem Mirrors.fetch (h : Mirrors now log shelf m) (real : coding.isReal = true) :
    Mirrors now log (shelf.fetch s coding).2 m :=
  fun k => rel_imp (h k) fun _ _ ⟨payload, v⟩ =>
    ⟨payload, v.hasPayload, v.details, v.carries.fetch real⟩

theorem Mirrors.at_later (h : Mirrors now log shelf m) (le : now ≤ later) :
    Mirrors later log shelf m := by
  intro k
  rw [current?_later le, m.load_later now k le]
  refine rel_filter (h k) fun made s ⟨payload, v⟩ => ?_
  rw [v.details, Production.expiration_represent]

theorem Mirrors.delete (h : Mirrors now log shelf m) (key : CacheKey) :
    Mirrors now (.invalidated key :: log) shelf (m.delete key) := by
  intro k
  rw [current?_invalidated, m.load_delete]
  split
  · exact .none
  · exact h k

theorem Mirrors.deleteGroup (h : Mirrors now log shelf m) (indexed : (Leaf.map m).Indexed now)
    (name : String) :
    Mirrors now (.groupInvalidated name :: log) shelf (m.deleteGroup now name) := by
  intro k
  rw [current?_groupInvalidated, m.load_deleteGroup now k indexed]
  refine rel_filter (h k) fun made s ⟨payload, v⟩ => ?_
  have same : made.1.isIn name = s.details.inGroup name := by
    rw [Bool.eq_iff_iff, v.details, Production.inGroup_represent]
    simp [Production.isIn]
  rw [same]

/-- A production that lasts replaces what stood under its key. -/
theorem Mirrors.store (h : Mirrors now log shelf m) (lasts : p.lifetime.isZero = false)
    (v : VersionOf p now payload shelf s) :
    Mirrors now (.produced key p now :: log) shelf (m.store now key s) := by
  intro k
  rw [current?_produced lasts, m.load_store]
  split
  · refine rel_filter (.some ⟨payload, v⟩) fun made s ⟨payload, v⟩ => ?_
    rw [v.details, Production.expiration_represent]
  · exact h k

theorem Mirrors.skip (h : Mirrors now log shelf m) (zero : p.lifetime.isZero = true) :
    Mirrors now (.produced key p now :: log) shelf m := by
  intro k
  rw [current?_produced_of_isZero zero]
  exact h k

/-- What was found may be stored again. -/
theorem Mirrors.restore (h : Mirrors now log shelf m) (found : (m.load now key).1 = some s) :
    Mirrors now log shelf (m.store now key s) := by
  refine h.congr fun k => ?_
  rw [m.load_store]
  split
  · next same =>
    have fresh := (MapStore.load_eq_some_iff.1 found).2
    rw [same, found, Option.filter_some, if_pos (decide_eq_true fresh)]
  · rfl

/-! ### An engine over a map -/

namespace Engine

variable {e : Engine}

/-- The backend of the engine is one map store. -/
def Over (e : Engine) (m : MapStore) : Prop := e.backend = some (.leaf (.map m))

theorem Over.load (h : e.Over m) (now : Instant) (key : CacheKey) :
    e.load now key =
      ((m.load now key).1, { e with backend := some (.leaf (.map (m.load now key).2)) }) := by
  unfold Engine.load
  rw [show e.backend = some (.leaf (.map m)) from h]
  rfl

theorem Over.store (h : e.Over m) (now : Instant) (key : CacheKey) (s : Shared) :
    e.store now key s = { e with backend := some (.leaf (.map (m.store now key s))) } := by
  unfold Engine.store
  rw [show e.backend = some (.leaf (.map m)) from h]
  rfl

theorem Over.afterHit (h : e.Over m) (now : Instant) (key : CacheKey) (coding : Coding) (s : Shared)
    (isNew : Bool) :
    (e.afterHit now key coding s isNew).Over (if isNew then m.store now key s else m) ∧
      (e.afterHit now key coding s isNew).shelf = (e.shelf.fetch s coding).2 := by
  have fetched : { e with shelf := (e.shelf.fetch s coding).2 }.Over m := h
  unfold Engine.afterHit Over
  cases isNew with
  | false => exact ⟨h, rfl⟩
  | true =>
    simp only [if_true]
    rw [fetched.store]
    exact ⟨rfl, rfl⟩

theorem Over.afterMiss (h : e.Over m) (now : Instant) (key : CacheKey) (coding : Coding)
    (p : Production) :
    (e.afterMiss now key coding p).Over
        (if p.lifetime.isZero then m else m.store now key (e.shelf.add (p.represent now)).1) ∧
      (e.afterMiss now key coding p).shelf =
        ((e.shelf.add (p.represent now)).2.fetch (e.shelf.add (p.represent now)).1 coding).2 := by
  have isSome : e.backend.isSome = true := by rw [show e.backend = _ from h]; rfl
  unfold Engine.afterMiss Over
  simp only [isSome, Bool.true_and]
  cases p.lifetime.isZero with
  | true => exact ⟨h, rfl⟩
  | false =>
    have fetched : { e with
        shelf := ((e.shelf.add (p.represent now)).2.fetch
          (e.shelf.add (p.represent now)).1 coding).2 }.Over m := h
    simp only [Bool.not_false, if_true]
    rw [fetched.store]
    exact ⟨rfl, rfl⟩

end Engine

/-- The engine of a session is over a map store that mirrors the abstract cache. -/
structure Session.Refines (s : Session) (m : MapStore) : Prop where
  onMap : s.engine.Over m
  indexed : (Leaf.map m).Indexed s.now
  mirrors : Mirrors s.now s.log s.engine.shelf m

namespace Session

variable {s : Session} {H : Type} {resource : Resource H}
  {run : H → Request → CacheKey → Except ProduceFailure Production} {request : Request}
  {v : Variant H}

/-- What is found is a version of some production. -/
theorem Refines.version (h : s.Refines m) {t : Shared} (found : (m.load s.now k).1 = some t) :
    ∃ p date payload, current? s.now s.log k = some (p, date) ∧
      VersionOf p date payload s.engine.shelf t := by
  have rel := h.mirrors k
  rw [found] at rel
  generalize current? s.now s.log k = made at *
  cases rel with
  | some hv =>
    obtain ⟨payload, version⟩ := hv
    exact ⟨_, _, payload, rfl, version⟩

/-- Nothing is found exactly when there is nothing current. -/
theorem Refines.missing_iff (h : s.Refines m) :
    (m.load s.now k).1 = none ↔ current? s.now s.log k = none := by
  have rel := h.mirrors k
  generalize current? s.now s.log k = made at *
  generalize (m.load s.now k).1 = found at *
  cases rel with
  | some => simp
  | none => simp

theorem events_of_none {served : Served} (h : served.produced = none) :
    served.events resource run request now = [] := by
  unfold Served.events
  rw [h]
  split
  · next hk => cases hk
  · rfl

theorem events_of_ok {served : Served} (chosen : Negotiation.chooseVariant? resource request.accept
      request.acceptLanguage = some v) (h : served.produced = some (Engine.keyOf request v))
    (result : run v.handler request (Engine.keyOf request v) = .ok p) :
    served.events resource run request now = [.produced (Engine.keyOf request v) p now] := by
  unfold Served.events
  rw [chosen, h]
  simp only [result]

theorem events_of_error {served : Served} {failure : ProduceFailure}
    (chosen : Negotiation.chooseVariant? resource request.accept request.acceptLanguage = some v)
    (h : served.produced = some (Engine.keyOf request v))
    (result : run v.handler request (Engine.keyOf request v) = .error failure) :
    served.events resource run request now = [] := by
  unfold Served.events
  rw [chosen, h]
  simp only [result]

theorem refines_of_served {served : Served}
    (h : s.engine.serve s.now resource run request = served) {m' : MapStore}
    (onMap : served.engine.Over m') (indexed : (Leaf.map m').Indexed s.now)
    (mirrors :
      Mirrors s.now (served.events resource run request s.now ++ s.log) served.engine.shelf m') :
    (s.step (.serve resource run request)).Refines m' := by
  subst h
  exact ⟨onMap, indexed, mirrors⟩

theorem Refines.serve_of_refused (h : s.Refines m)
    (refused : ∀ v coding, ¬ s.engine.Chosen resource request v coding) :
    (s.step (.serve resource run request)).Refines m := by
  obtain ⟨-, produced, backend, shelf, -⟩ := Engine.serve_of_refused s.now run refused
  refine refines_of_served rfl (backend.trans h.onMap) h.indexed ?_
  rw [events_of_none produced, shelf]
  exact h.mirrors

/-- The engine after a load, which evicts what has expired, is over a store that mirrors as well. -/
theorem Refines.load (h : s.Refines m) (key : CacheKey) :
    (s.engine.load s.now key).1 = (m.load s.now key).1 ∧
      (s.engine.load s.now key).2.Over (m.load s.now key).2 ∧
      (s.engine.load s.now key).2.shelf = s.engine.shelf ∧
      (Leaf.map (m.load s.now key).2).Indexed s.now ∧
      Mirrors s.now s.log s.engine.shelf (m.load s.now key).2 := by
  rw [h.onMap.load]
  exact ⟨rfl, rfl, rfl, Leaf.Indexed.load h.indexed, h.mirrors.congr (m.load_load s.now key)⟩

theorem Refines.serve_of_found (h : s.Refines m)
    (chosen : s.engine.Chosen resource request v coding) {t : Shared}
    (found : (m.load s.now (Engine.keyOf request v)).1 = some t) :
    ∃ m', (s.step (.serve resource run request)).Refines m' := by
  obtain ⟨loaded, onMap, shelf, indexed, mirrors⟩ := h.load (Engine.keyOf request v)
  obtain ⟨p, date, payload, -, version⟩ := h.version found
  have versioned :
      Version (fun _ _ _ => True) (s.engine.load s.now (Engine.keyOf request v)).2.shelf
      (Engine.keyOf request v) t := by
    rw [shelf]
    exact ⟨p, date, payload, trivial, version⟩
  obtain ⟨answer, -, -, -, -, -, -, -, served⟩ :=
    Engine.serve_of_found run chosen (loaded.trans found) versioned
  obtain ⟨overAfter, shelfAfter⟩ :=
    onMap.afterHit s.now (Engine.keyOf request v) coding t answer.isNew
  have fetched := mirrors.fetch (s := t) chosen.isReal
  refine ⟨_, refines_of_served served overAfter ?_ ?_⟩
  · split
    · exact indexed.store
    · exact indexed
  · rw [events_of_none rfl, shelfAfter, shelf]
    split
    · exact fetched.restore ((m.load_load s.now _ _).trans found)
    · exact fetched

theorem Refines.serve_of_missing (h : s.Refines m)
    (chosen : s.engine.Chosen resource request v coding) (valid : Valid resource run request)
    (missing : (m.load s.now (Engine.keyOf request v)).1 = none) :
    ∃ m', (s.step (.serve resource run request)).Refines m' := by
  obtain ⟨loaded, onMap, shelf, indexed, mirrors⟩ := h.load (Engine.keyOf request v)
  have served := Engine.serve_of_missing run chosen (loaded.trans missing)
  cases result : run v.handler request (Engine.keyOf request v) with
  | error failure =>
    rw [Engine.produce_of_error result] at served
    refine ⟨_, refines_of_served served onMap indexed ?_⟩
    rw [events_of_error chosen.variant rfl result]
    show Mirrors s.now s.log (s.engine.load s.now (Engine.keyOf request v)).2.shelf _
    rw [shelf]
    exact mirrors
  | ok p =>
    obtain ⟨payload, hp⟩ := valid v (Negotiation.mem_of_chooseVariant? chosen.variant) _ p result
    obtain ⟨body, -, produced⟩ :=
      Engine.produce_of_ok s.now (s.engine.load s.now (Engine.keyOf request v)).2
      (Engine.keyOf request v) result hp chosen.isReal
    rw [produced] at served
    have counted : (s.engine.load s.now (Engine.keyOf request v)).2.counted.Over _ := onMap
    obtain ⟨overAfter, shelfAfter⟩ := counted.afterMiss s.now (Engine.keyOf request v) coding p
    have shelf' : (s.engine.load s.now (Engine.keyOf request v)).2.counted.shelf = s.engine.shelf :=
      shelf
    rw [shelf'] at overAfter shelfAfter
    -- The new version stands on the shelf, in the coding of the request too.
    have carried := (Shelf.carries_add s.engine.shelf (hp.carry s.now)).fetch
      (s := (s.engine.shelf.add (p.represent s.now)).1) chosen.isReal
    have grown := (mirrors.grows (s.engine.shelf.grows_add (p.represent s.now))).fetch
      (s := (s.engine.shelf.add (p.represent s.now)).1) chosen.isReal
    refine ⟨_, refines_of_served served overAfter ?_ ?_⟩
    · split
      · exact indexed
      · exact indexed.store
    · rw [events_of_ok chosen.variant rfl result, shelfAfter]
      cases lasts : p.lifetime.isZero with
      | true => exact grown.skip lasts
      | false => exact grown.store lasts ⟨hp, rfl, carried⟩

/-- A chore makes no difference to what is found. -/
theorem Refines.chore (h : s.Refines m) (path : List Nat) (c : Chore) :
    ∃ m', (s.step (.chore path c)).Refines m' := by
  have backend : (s.step (.chore path c)).engine.backend =
      some ((((Backend.leaf (.map m)).zoom
        (fun part => ((), c.perform s.now s.engine.shelf part)) path).map (·.2)).getD
          (.leaf (.map m))) := by
    show s.engine.backend.map _ = _
    rw [show s.engine.backend = _ from h.onMap]
    rfl
  cases path with
  | nil =>
    obtain ⟨done, performed, chore⟩ := Backend.isDone_perform s.now s.engine.shelf (.map m) c
    obtain ⟨m', rfl, same⟩ := chore.of_map rfl
    refine ⟨m', ?_, h.indexed.chore chore, h.mirrors.congr same⟩
    rw [Backend.zoom, performed] at backend
    exact backend
  | cons number path =>
    refine ⟨m, ?_, h.indexed, h.mirrors⟩
    rw [Backend.zoom] at backend
    exact backend

/-- **One step keeps the engine over a store that mirrors the abstract cache.** -/
theorem Refines.step (h : s.Refines m) {move : Move} (valid : move.IsValid) :
    ∃ m', (s.step move).Refines m' := by
  cases move with
  | serve resource run request =>
    by_cases chosen : ∃ v coding, s.engine.Chosen resource request v coding
    · obtain ⟨v, coding, chosen⟩ := chosen
      cases found : (m.load s.now (Engine.keyOf request v)).1 with
      | some t => exact h.serve_of_found chosen found
      | none => exact h.serve_of_missing chosen valid found
    · exact ⟨m, h.serve_of_refused fun v coding hc => chosen ⟨v, coding, hc⟩⟩
  | invalidate key =>
    refine ⟨m.delete key, ?_, h.indexed.delete, h.mirrors.delete key⟩
    show s.engine.backend.map (·.delete key) = _
    rw [show s.engine.backend = _ from h.onMap]
    rfl
  | invalidateGroup name =>
    refine ⟨m.deleteGroup s.now name, ?_, h.indexed.deleteGroup,
      h.mirrors.deleteGroup h.indexed name⟩
    show s.engine.backend.map (·.deleteGroup s.now name) = _
    rw [show s.engine.backend = _ from h.onMap]
    rfl
  | chore path c => exact h.chore path c
  | tick date =>
    have le := s.now.le_later date
    exact ⟨m, h.onMap, h.indexed.at_later le, h.mirrors.at_later le⟩

theorem refines_run (h : s.Refines m) {moves : List Move} (valid : ∀ move ∈ moves, move.IsValid) :
    ∃ m', (s.run moves).Refines m' := by
  unfold Session.run
  induction moves generalizing s m with
  | nil => exact ⟨m, h⟩
  | cons move moves ih =>
    obtain ⟨m', h'⟩ := h.step (valid move List.mem_cons_self)
    exact ih h' fun move hm => valid move (List.mem_cons_of_mem _ hm)

theorem refines_empty {period : Duration} (onMap : s.engine.Over (.empty period))
    (log : s.log = []) :
    s.Refines (.empty period) := by
  refine ⟨onMap, Leaf.IsNew.indexed (l := .map (.empty period)) ⟨period, rfl⟩ s.now, fun k => ?_⟩
  rw [log]
  exact .none

/-! ### Answers -/

variable (run) in
/-- A current production answers the request. -/
theorem Refines.serve_of_current (h : s.Refines m)
    (chosen : s.engine.Chosen resource request v coding) {date : Instant}
    (current : current? s.now s.log (Engine.keyOf request v) = some (p, date)) :
    (s.serve resource run request).produced = none ∧
      (s.serve resource run request).engine.counts.productions = s.engine.counts.productions ∧
      (s.serve resource run request).response.status = .ok ∧
      (s.serve resource run request).response.SaysCache .hit ∧
      ∃ payload, p.HasPayload payload ∧
        (s.serve resource run request).response.plain? = some payload := by
  have loaded := (h.load (Engine.keyOf request v)).1
  have shelf := (h.load (Engine.keyOf request v)).2.2.1
  cases found : (m.load s.now (Engine.keyOf request v)).1 with
  | none =>
    rw [h.missing_iff.1 found] at current
    cases current
  | some t =>
    obtain ⟨p', date', payload, current', version⟩ := h.version found
    obtain ⟨rfl, rfl⟩ := Prod.mk.inj (Option.some.inj (current.symm.trans current'))
    have versioned : Version (fun _ q date' => q = p ∧ date' = date)
        (s.engine.load s.now (Engine.keyOf request v)).2.shelf (Engine.keyOf request v) t := by
      rw [shelf]
      exact ⟨p, date, payload, ⟨rfl, rfl⟩, version⟩
    obtain ⟨answer, _, _, payload, ⟨rfl, rfl⟩, details, hp, decodes, served⟩ :=
      Engine.serve_of_found run chosen (loaded.trans found) versioned
    unfold Session.serve
    rw [served, details]
    refine ⟨rfl, ?_, rfl, Engine.saysCache_respond, payload, hp, ?_⟩
    · rw [Engine.productions_afterHit, Engine.counts_load]
    · exact Engine.plain?_respond decodes Production.not_transport_represent

/-- Without a current production the producer answers. -/
theorem Refines.serve_of_not_current (h : s.Refines m)
    (chosen : s.engine.Chosen resource request v coding) (valid : Valid resource run request)
    (current : current? s.now s.log (Engine.keyOf request v) = none) :
    (s.serve resource run request).produced = some (Engine.keyOf request v) ∧
      (s.serve resource run request).engine.counts.productions = s.engine.counts.productions + 1 ∧
      ¬ (s.serve resource run request).response.SaysCache .hit ∧
      ∀ p, run v.handler request (Engine.keyOf request v) = .ok p →
        (s.serve resource run request).response.status = .ok ∧
        (s.serve resource run request).response.SaysCache .miss ∧
        ∃ payload, p.HasPayload payload ∧
          (s.serve resource run request).response.plain? = some payload := by
  have missing := (h.load (Engine.keyOf request v)).1.trans (h.missing_iff.2 current)
  have served := Engine.serve_of_missing run chosen missing
  unfold Session.serve
  refine ⟨?_, ?_, ?_, fun p result => ?_⟩
  · rw [served]
    cases run v.handler request (Engine.keyOf request v) <;> rfl
  · rw [served, Engine.productions_produce, Engine.counts_load]
  · rw [served]
    exact Engine.not_saysCache_produce _
  · obtain ⟨payload, hp⟩ := valid v (Negotiation.mem_of_chooseVariant? chosen.variant) _ p result
    obtain ⟨body, decodes, produced⟩ := Engine.produce_of_ok s.now
      (s.engine.load s.now (Engine.keyOf request v)).2 (Engine.keyOf request v) result hp
      chosen.isReal
    rw [served, produced]
    exact ⟨rfl, Engine.saysCache_respond, payload, hp,
      Engine.plain?_respond decodes Production.not_transport_represent⟩

/-- **An engine over a map refines the abstract cache.** In every run from the empty store in which
producers give streams of the codings that they declare, an acceptable request is answered from the
cache, and no producer runs, exactly when the abstract cache has a current production for its key.
The body is the payload of that production then. Else the producer runs once, and the body is the
payload of what it gives. -/
theorem serve_refines {start : Session} {period : Duration}
    (onMap : start.engine.Over (.empty period)) (log : start.log = []) {moves : List Move}
    (valid : ∀ move ∈ moves, move.IsValid) {resource : Resource H}
    {run : H → Request → CacheKey → Except ProduceFailure Production} {request : Request}
    (validNow : Valid resource run request) {v : Variant H} {coding : Coding}
    (chosen : (start.run moves).engine.Chosen resource request v coding) :
    ((((start.run moves).serve resource run request).response.SaysCache .hit ∧
        ((start.run moves).serve resource run request).produced = none) ↔
      ∃ made, current? (start.run moves).now (start.run moves).log (Engine.keyOf request v) =
        some made) ∧
    (∀ p date,
      current? (start.run moves).now (start.run moves).log (Engine.keyOf request v) =
        some (p, date) →
        ((start.run moves).serve resource run request).engine.counts.productions =
          (start.run moves).engine.counts.productions ∧
        ((start.run moves).serve resource run request).response.status = .ok ∧
        ∃ payload, p.HasPayload payload ∧
          ((start.run moves).serve resource run request).response.plain? = some payload) ∧
    (current? (start.run moves).now (start.run moves).log (Engine.keyOf request v) = none →
      ((start.run moves).serve resource run request).produced = some (Engine.keyOf request v) ∧
      ((start.run moves).serve resource run request).engine.counts.productions =
        (start.run moves).engine.counts.productions + 1 ∧
      ∀ p, run v.handler request (Engine.keyOf request v) = .ok p →
        ((start.run moves).serve resource run request).response.status = .ok ∧
        ((start.run moves).serve resource run request).response.SaysCache .miss ∧
        ∃ payload, p.HasPayload payload ∧
          ((start.run moves).serve resource run request).response.plain? = some payload) := by
  obtain ⟨m, refines⟩ := refines_run (refines_empty onMap log) valid
  generalize start.run moves = s at *
  refine ⟨⟨fun hit => ?_, fun ⟨made, current⟩ => ?_⟩, fun p date current => ?_, fun current => ?_⟩
  · cases current : current? s.now s.log (Engine.keyOf request v) with
    | some made => exact ⟨made, rfl⟩
    | none => exact absurd hit.1 (refines.serve_of_not_current chosen validNow current).2.2.1
  · obtain ⟨produced, -, -, hit, -⟩ := refines.serve_of_current run chosen current
    exact ⟨hit, produced⟩
  · obtain ⟨-, productions, status, -, payload⟩ := refines.serve_of_current run chosen current
    exact ⟨productions, status, payload⟩
  · obtain ⟨produced, productions, -, answer⟩ :=
      refines.serve_of_not_current chosen validNow current
    exact ⟨produced, productions, answer⟩

/-- An engine over a map store. -/
def overMap : Session where
  engine := .ofBackend (some (.leaf (.map (.empty (.ofSeconds 10)))))
  now := ⟨0, 0, Duration.zero.nanos_lt⟩
  log := []

/-- A greeting that was given half a minute ago is current, so it answers the request in another
coding, and no producer runs. -/
theorem serve_greeting :
    ((overMap.run greeted).serve [⟨"", "", "", ()⟩] (fun _ _ _ => .ok greeting)
      ⟨"/", none, none, none, some "gzip"⟩).response.SaysCache .hit ∧
    ((overMap.run greeted).serve [⟨"", "", "", ()⟩] (fun _ _ _ => .ok greeting)
      ⟨"/", none, none, none, some "gzip"⟩).produced = none := by
  have isSome :
      (Negotiation.chooseVariant? [(⟨"", "", "", ()⟩ : Variant Unit)] none none).isSome = true := by
    decide +kernel
  obtain ⟨v, hv⟩ := Option.isSome_iff_exists.1 isSome
  have key : Engine.keyOf ⟨"/", none, none, none, some "gzip"⟩ v = ⟨"/", "", "", ""⟩ := by
    obtain rfl := List.mem_singleton.1 (Negotiation.mem_of_chooseVariant? hv)
    decide +kernel
  have current :
      (current? (overMap.run greeted).now (overMap.run greeted).log
        ⟨"/", "", "", ""⟩).isSome = true := by
    decide +kernel
  have chosen :
      (overMap.run greeted).engine.Chosen [⟨"", "", "", ()⟩] ⟨"/", none, none, none, some "gzip"⟩ v
      .gzip := ⟨hv, by decide +kernel⟩
  have valid : Valid [(⟨"", "", "", ()⟩ : Variant Unit)] (fun _ _ _ => .ok greeting)
      ⟨"/", none, none, none, some "gzip"⟩ := by
    rintro v - key p hp
    obtain rfl := Except.ok.inj hp
    exact ⟨_, rfl⟩
  have onMap : overMap.engine.Over (.empty (.ofSeconds 10)) := rfl
  refine (serve_refines onMap rfl valid_greeted valid chosen).1.2 ?_
  rw [key]
  exact Option.isSome_iff_exists.1 current

/-- A production that lists the empty name among its groups. -/
def unnamed : Production := ⟨[], [0x68, 0x69], .identity, [""], .ofSeconds 60⟩

/-- The empty name is no group: what lists it outlives the invalidation of the group of that
name. -/
theorem unnamed_outlives_invalidation :
    "" ∈ unnamed.groups ∧ unnamed.lifetime.isZero = false ∧
    (overMap.serve [⟨"", "", "", ()⟩] (fun _ _ _ => .ok unnamed) (.ofPath "/")).produced =
      some ⟨"/", "", "", ""⟩ ∧
    ((overMap.run [.serve [⟨"", "", "", ()⟩] (fun _ _ _ => .ok unnamed) (.ofPath "/"),
      .invalidateGroup ""]).serve [⟨"", "", "", ()⟩] (fun _ _ _ => .ok unnamed)
        (.ofPath "/")).response.SaysCache .hit ∧
    ((overMap.run [.serve [⟨"", "", "", ()⟩] (fun _ _ _ => .ok unnamed) (.ofPath "/"),
      .invalidateGroup ""]).serve [⟨"", "", "", ()⟩] (fun _ _ _ => .ok unnamed)
        (.ofPath "/")).produced = none := by
  unfold Response.SaysCache
  decide +kernel

end Session
end VariantCache
