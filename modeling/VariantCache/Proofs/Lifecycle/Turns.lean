import VariantCache.Lifecycle

/-!
# Starting in turn, and stopping what was started

A start goes through the workers one after the other, each in the state that those before it left
(`InTurn`). It succeeds when it gets to the end (`start_eq_ok_iff`). Otherwise one of the workers is
the first to refuse, and then those before it are stopped, the last one first
(`start_eq_error_iff`). Workers whose calls are recorded behave as without the record, so what
a start asks of them can be read off it: all starts in order (`start_record_of_inTurn`), or
the starts up to the refusal and the stops of those before it (`start_record_of_refused`).
-/

namespace VariantCache.Lifecycle

variable {S E W : Type}

/-! ### In turn -/

/-- Each worker starts, in the state that those before it left. -/
inductive InTurn : List (Startable S E) → S → S → Prop where
  | nil (state : S) : InTurn [] state state
  | cons {w : Startable S E} {rest : List (Startable S E)} {state next last : S}
    (starts : w.start state = (.ok (), next)) (behind : InTurn rest next last) :
    InTurn (w :: rest) state last

theorem startAfter_of_inTurn {workers : List (Startable S E)} {state last : S}
    (h : InTurn workers state last) (started : List (Startable S E)) :
    startAfter started workers state = (.ok (), last) := by
  induction h generalizing started with
  | nil state => rfl
  | cons starts behind ih => simp only [startAfter, starts, ih]

/-- Where a worker refuses after those before it have started, these are stopped and no others. -/
theorem startAfter_of_refused {before : List (Startable S E)} {state reached : S}
    (h : InTurn before state reached) {w : Startable S E} {e : E} {refused : S}
    (refuses : w.start reached = (.error e, refused)) (started after : List (Startable S E)) :
    startAfter started (before ++ w :: after) state =
      (.error e, stopAll (before.reverse ++ started) refused) := by
  induction h generalizing started with
  | nil state => simp only [List.nil_append, startAfter, refuses, List.reverse_nil]
  | cons starts behind ih =>
    simp only [List.cons_append, startAfter, starts, ih refuses, List.reverse_cons,
      List.append_assoc, List.nil_append]

/-- Workers all start in turn, or one of them is the first to refuse. -/
theorem inTurn_or_refused (workers : List (Startable S E)) (state : S) :
    (∃ last, InTurn workers state last) ∨
      ∃ before w after reached e refused, workers = before ++ w :: after ∧
        InTurn before state reached ∧ w.start reached = (.error e, refused) := by
  induction workers generalizing state with
  | nil => exact .inl ⟨state, .nil state⟩
  | cons w rest ih =>
    cases begun : w.start state with
    | mk result next =>
      cases result with
      | error e => exact .inr ⟨[], w, rest, state, e, next, rfl, .nil state, begun⟩
      | ok =>
        rcases ih next with ⟨last, behind⟩ | ⟨before, v, after, reached, e, refused, rfl, behind, refuses⟩
        · exact .inl ⟨last, .cons begun behind⟩
        · exact .inr ⟨w :: before, v, after, reached, e, refused, rfl, .cons begun behind, refuses⟩

/-- **A start succeeds when each worker in turn starts.** -/
theorem start_eq_ok_iff {workers : Lifecycle S E} {state last : S} :
    workers.start state = (.ok (), last) ↔ InTurn workers state last := by
  constructor
  · intro h
    rcases inTurn_or_refused workers state with
      ⟨last', inTurn⟩ | ⟨before, w, after, reached, e, refused, rfl, inTurn, refuses⟩
    · rw [start, startAfter_of_inTurn inTurn] at h
      obtain rfl := (Prod.mk.inj h).2
      exact inTurn
    · rw [start, startAfter_of_refused inTurn refuses] at h
      cases h
  · intro h
    exact startAfter_of_inTurn h []

/-- **A start that fails gives the error of the first worker that refuses**, and stops those before it,
the last one first. -/
theorem start_eq_error_iff {workers : Lifecycle S E} {state last : S} {e : E} :
    workers.start state = (.error e, last) ↔
      ∃ before w after reached refused, workers = before ++ w :: after ∧
        InTurn before state reached ∧ w.start reached = (.error e, refused) ∧
        last = stopAll before.reverse refused := by
  constructor
  · intro h
    rcases inTurn_or_refused workers state with
      ⟨last', inTurn⟩ | ⟨before, w, after, reached, e', refused, rfl, inTurn, refuses⟩
    · rw [start, startAfter_of_inTurn inTurn] at h
      cases h
    · rw [start, startAfter_of_refused inTurn refuses, List.append_nil] at h
      cases h
      exact ⟨before, w, after, reached, refused, rfl, inTurn, refuses, rfl⟩
  · rintro ⟨before, w, after, reached, refused, rfl, inTurn, refuses, rfl⟩
    rw [start, startAfter_of_refused inTurn refuses, List.append_nil]

/-! ### What workers are asked -/

/-- What a worker is asked to do. -/
inductive Call (W : Type) where
  | start (w : W)
  | stop (w : W)
  deriving DecidableEq

/-- A worker with a record of its calls. -/
def record (worker : W → Startable S E) (w : W) : Startable (S × List (Call W)) E where
  name := (worker w).name
  start state := (((worker w).start state.1).1, ((worker w).start state.1).2, state.2 ++ [.start w])
  stop state := ((worker w).stop state.1, state.2 ++ [.stop w])

variable {worker : W → Startable S E}

theorem inTurn_record {ws : List W} {state last : S} (h : InTurn (ws.map worker) state last)
    (calls : List (Call W)) :
    InTurn (ws.map (record worker)) (state, calls) (last, calls ++ ws.map .start) := by
  induction ws generalizing state calls with
  | nil =>
    cases h
    rw [List.map_nil, List.map_nil, List.append_nil]
    exact .nil _
  | cons w ws ih =>
    obtain - | @⟨_, _, _, next, _, starts, behind⟩ := h
    have begun : (record worker w).start (state, calls) = (.ok (), next, calls ++ [.start w]) := by
      simp only [record, starts]
    have rest := ih behind (calls ++ [.start w])
    rw [List.append_assoc] at rest
    exact .cons begun rest

theorem stopAll_record (ws : List W) (state : S) (calls : List (Call W)) :
    stopAll (ws.map (record worker)) (state, calls) =
      (stopAll (ws.map worker) state, calls ++ ws.map .stop) := by
  induction ws generalizing state calls with
  | nil => simp [stopAll]
  | cons w ws ih =>
    have rest := ih ((worker w).stop state) (calls ++ [.stop w])
    rw [List.append_assoc] at rest
    exact rest

/-- Where each worker in turn starts, this is all that they are asked. -/
theorem start_record_of_inTurn {ws : List W} {state last : S}
    (h : InTurn (ws.map worker) state last) :
    start (ws.map (record worker)) (state, []) = (.ok (), last, ws.map .start) :=
  startAfter_of_inTurn (inTurn_record h []) []

/-- Where a worker refuses, those up to it are asked to start, and those before it to stop. -/
theorem start_record_of_refused {before : List W} {w : W} {state reached refused : S} {e : E}
    (h : InTurn (before.map worker) state reached)
    (refuses : (worker w).start reached = (.error e, refused)) (after : List W) :
    start ((before ++ w :: after).map (record worker)) (state, []) =
      (.error e, stopAll (before.reverse.map worker) refused,
        (before ++ [w]).map .start ++ before.reverse.map .stop) := by
  have refuses' : (record worker w).start (reached, before.map .start) =
      (.error e, refused, before.map .start ++ [.start w]) := by
    simp only [record, refuses]
  have stopped := startAfter_of_refused (inTurn_record h []) refuses' [] (after.map (record worker))
  rw [List.append_nil, ← List.map_reverse, stopAll_record] at stopped
  rw [start, List.map_append, List.map_cons, stopped, List.map_append, List.map_singleton]

end VariantCache.Lifecycle
