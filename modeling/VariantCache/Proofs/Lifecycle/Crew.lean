import Mathlib.Data.List.Nodup
import VariantCache.Proofs.Lifecycle.Turns

/-!
# Crews

The workers of a system are a crew when a worker that runs refuses to start, one that refuses changes
nothing, and starting or stopping one leaves the others as they are; to stop one that does not run
does nothing at all (`Crew`). Workers of a crew all start in turn exactly when none is listed twice and
none would refuse by itself (`Crew.exists_inTurn_iff`), and then they run beside those that ran before
(`Crew.spec_of_inTurn`). None of those that are started in turn ran before, so stopping them again leaves
the workers running that ran before (`Crew.runs_rollback`).
-/

namespace VariantCache

/-- Workers of a system with states of type `S`. It is known which of them run. -/
structure Crew (W S E : Type) where
  worker : W → Startable S E
  /-- The worker is one of the system in this state. -/
  Has : S → W → Prop
  /-- The worker was started and not stopped since. -/
  Runs : S → W → Prop
  /-- Why the worker would refuse to start, if it would. -/
  refusal? : S → W → Option E
  /-- A worker that runs refuses to start once more. -/
  refuses_of_runs {s : S} {w : W} : Runs s w → refusal? s w ≠ none
  /-- A worker that refuses changes nothing. -/
  start_of_refusal {s : S} {w : W} {e : E} : refusal? s w = some e → (worker w).start s = (.error e, s)
  /-- Any other worker starts, and runs from then on. -/
  start_of_none {s : S} {w : W} : Has s w → refusal? s w = none →
    ∃ next, (worker w).start s = (.ok (), next) ∧
      ∀ v, (Has next v ↔ Has s v) ∧ (Runs next v ↔ v = w ∨ Runs s v) ∧
        (v ≠ w → refusal? next v = refusal? s v)
  /-- A worker that is stopped does not run. -/
  stop_runs {s : S} {w : W} (v : W) :
    (Has ((worker w).stop s) v ↔ Has s v) ∧ (Runs ((worker w).stop s) v ↔ v ≠ w ∧ Runs s v)
  /-- To stop a worker that does not run does nothing. -/
  stop_of_not_runs {s : S} {w : W} : ¬ Runs s w → (worker w).stop s = s

namespace Crew

open Lifecycle

variable {W S E : Type} {crew : Crew W S E} {ws before : List W} {s last reached : S} {v : W}

/-- The workers of a list, in which one may occur more than once. -/
def team (crew : Crew W S E) (ws : List W) : Lifecycle S E := ws.map crew.worker

/-! ### Starting in turn -/

/-- A worker starts only if it would not refuse. -/
theorem refusal?_eq_none {w : W} {next : S} (h : (crew.worker w).start s = (.ok (), next)) :
    crew.refusal? s w = none := by
  cases refusal : crew.refusal? s w with
  | none => rfl
  | some e =>
    rw [crew.start_of_refusal refusal] at h
    cases h

/-- What a worker that starts does to all of them. -/
theorem start_spec {w : W} {next : S} (here : crew.Has s w)
    (h : (crew.worker w).start s = (.ok (), next)) (v : W) :
    (crew.Has next v ↔ crew.Has s v) ∧ (crew.Runs next v ↔ v = w ∨ crew.Runs s v) ∧
      (v ≠ w → crew.refusal? next v = crew.refusal? s v) := by
  obtain ⟨next', h', spec⟩ := crew.start_of_none here (refusal?_eq_none h)
  rw [h'] at h
  cases h
  exact spec v

/-- Workers that have started in turn run beside those that ran before, and are still there. -/
theorem spec_of_inTurn (there : ∀ w ∈ ws, crew.Has s w) (h : InTurn (crew.team ws) s last) (v : W) :
    (crew.Has last v ↔ crew.Has s v) ∧ (crew.Runs last v ↔ v ∈ ws ∨ crew.Runs s v) := by
  induction ws generalizing s with
  | nil =>
    cases h
    simp
  | cons w ws ih =>
    obtain - | ⟨starts, behind⟩ := h
    have spec := start_spec (there w List.mem_cons_self) starts
    have there' : ∀ u ∈ ws, crew.Has _ u := fun u hu => (spec u).1.2 (there u (List.mem_cons_of_mem w hu))
    obtain ⟨has, runs⟩ := ih there' behind
    rw [has, runs, (spec v).1, (spec v).2.1, List.mem_cons]
    exact ⟨Iff.rfl, by tauto⟩

/-- **Workers all start in turn exactly when none occurs twice and none would refuse.** -/
theorem exists_inTurn_iff (there : ∀ w ∈ ws, crew.Has s w) :
    (∃ last, InTurn (crew.team ws) s last) ↔ ws.Nodup ∧ ∀ w ∈ ws, crew.refusal? s w = none := by
  induction ws generalizing s with
  | nil =>
    refine iff_of_true ⟨s, .nil s⟩ ⟨List.nodup_nil, fun w hw => ?_⟩
    cases hw
  | cons w ws ih =>
    have here := there w List.mem_cons_self
    -- The first worker starts, and the others do so after it.
    have afterFirst {next : S} (starts : (crew.worker w).start s = (.ok (), next)) :
        (∃ last, InTurn (crew.team ws) next last) ↔
          ws.Nodup ∧ w ∉ ws ∧ ∀ u ∈ ws, crew.refusal? s u = none := by
      have spec := start_spec here starts
      rw [ih fun u hu => (spec u).1.2 (there u (List.mem_cons_of_mem w hu))]
      refine and_congr_right fun _ => ⟨fun free => ?_, fun ⟨once, free⟩ u hu => ?_⟩
      · have once : w ∉ ws := fun hw => crew.refuses_of_runs ((spec w).2.1.2 (.inl rfl)) (free w hw)
        refine ⟨once, fun u hu => ?_⟩
        rw [← (spec u).2.2 (ne_of_mem_of_not_mem hu once)]
        exact free u hu
      · rw [(spec u).2.2 (ne_of_mem_of_not_mem hu once)]
        exact free u hu
    rw [List.nodup_cons, List.forall_mem_cons]
    constructor
    · rintro ⟨last, h⟩
      obtain - | ⟨starts, behind⟩ := h
      obtain ⟨nodup, once, free⟩ := (afterFirst starts).1 ⟨last, behind⟩
      exact ⟨⟨once, nodup⟩, refusal?_eq_none starts, free⟩
    · rintro ⟨⟨once, nodup⟩, willing, free⟩
      obtain ⟨next, starts, -⟩ := crew.start_of_none here willing
      obtain ⟨last, behind⟩ := (afterFirst starts).2 ⟨nodup, once, free⟩
      exact ⟨last, .cons starts behind⟩

/-- A worker that has started in turn did not run before. -/
theorem not_runs_of_inTurn (there : ∀ w ∈ ws, crew.Has s w) (h : InTurn (crew.team ws) s last)
    (hv : v ∈ ws) : ¬ crew.Runs s v := by
  intro runs
  exact crew.refuses_of_runs runs (((exists_inTurn_iff there).1 ⟨last, h⟩).2 v hv)

/-! ### Stopping -/

/-- Of the workers that ran, those that are stopped do not run any more. -/
theorem spec_stopAll (ws : List W) (s : S) (v : W) :
    (crew.Has (stopAll (crew.team ws) s) v ↔ crew.Has s v) ∧
      (crew.Runs (stopAll (crew.team ws) s) v ↔ v ∉ ws ∧ crew.Runs s v) := by
  induction ws generalizing s with
  | nil => simp [team, stopAll]
  | cons w ws ih =>
    obtain ⟨has, runs⟩ := ih ((crew.worker w).stop s)
    obtain ⟨has', runs'⟩ := crew.stop_runs v
    rw [List.mem_cons]
    exact ⟨has.trans has', runs.trans (by rw [runs']; tauto)⟩

/-- Where none of the workers runs, stopping them does nothing. -/
theorem stopAll_of_not_runs (idle : ∀ w ∈ ws, ¬ crew.Runs s w) : stopAll (crew.team ws) s = s := by
  induction ws with
  | nil => rfl
  | cons w ws ih =>
    have rest := ih fun u hu => idle u (List.mem_cons_of_mem w hu)
    have first := crew.stop_of_not_runs (idle w List.mem_cons_self)
    show stopAll (crew.team ws) ((crew.worker w).stop s) = s
    rw [first, rest]

theorem stop_team (ws : List W) (s : S) : (crew.team ws).stop s = stopAll (crew.team ws.reverse) s := by
  rw [Lifecycle.stop, team, team, List.map_reverse]

/-- A second stop does nothing. -/
theorem stop_stop (ws : List W) (s : S) :
    (crew.team ws).stop ((crew.team ws).stop s) = (crew.team ws).stop s := by
  simp only [stop_team]
  refine stopAll_of_not_runs fun w hw runs => ?_
  exact ((spec_stopAll ws.reverse s w).2.1 runs).1 hw

/-- **Stopping what was started in turn leaves the workers running that ran before.** -/
theorem runs_rollback (there : ∀ w ∈ before, crew.Has s w) (h : InTurn (crew.team before) s reached)
    (v : W) : crew.Runs (stopAll (crew.team before.reverse) reached) v ↔ crew.Runs s v := by
  rw [(spec_stopAll before.reverse reached v).2, (spec_of_inTurn there h v).2, List.mem_reverse]
  constructor
  · rintro ⟨others, started | runs⟩
    · exact absurd started others
    · exact runs
  · intro runs
    exact ⟨fun hv => not_runs_of_inTurn there h hv runs, .inr runs⟩

/-! ### A start that fails -/

/-- A worker that does not start changes nothing. -/
theorem eq_of_refused {w : W} {e : E} {refused : S} (here : crew.Has s w)
    (h : (crew.worker w).start s = (.error e, refused)) : refused = s := by
  cases refusal : crew.refusal? s w with
  | some e' =>
    rw [crew.start_of_refusal refusal] at h
    cases h
    rfl
  | none =>
    obtain ⟨next, starts, -⟩ := crew.start_of_none here refusal
    rw [starts] at h
    cases h

/-- A start fails at the first worker that refuses, and those before it are stopped again. -/
theorem exists_refused (there : ∀ w ∈ ws, crew.Has s w) {e : E}
    (h : (crew.team ws).start s = (.error e, last)) :
    ∃ before w after reached, ws = before ++ w :: after ∧ InTurn (crew.team before) s reached ∧
      (crew.worker w).start reached = (.error e, reached) ∧
      last = stopAll (crew.team before.reverse) reached := by
  obtain ⟨started, x, others, reached, refused, listed, inTurn, refuses, rfl⟩ := start_eq_error_iff.1 h
  obtain ⟨before, rest, rfl, rfl, behind⟩ := List.map_eq_append_iff.1 listed
  obtain ⟨w, after, rfl, rfl, rfl⟩ := List.map_eq_cons_iff.1 behind
  have has := (spec_of_inTurn (fun u hu => there u (List.mem_append_left _ hu)) inTurn w).1
  have here : crew.Has reached w := has.2 (there w (List.mem_append_right before List.mem_cons_self))
  obtain rfl := eq_of_refused here refuses
  refine ⟨before, w, after, refused, rfl, inTurn, refuses, ?_⟩
  rw [team, List.map_reverse]

end Crew
end VariantCache
