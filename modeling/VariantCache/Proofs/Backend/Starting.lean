import Mathlib
import VariantCache.Proofs.Backend.Tree

/-!
# Starting a backend

Workers that are started in order all start where each of them does (`Lifecycle.startAfter_ok`). A
store is ready when its worker is stopped and has a period; in a backend whose stores are all
ready, a start succeeds, and starts the worker of every store and changes nothing else
(`Backend.start_of_ready`).
-/

namespace VariantCache

namespace Lifecycle

variable {S E : Type} {P : List (Startable S E) → S → Prop}

/-- Workers start together where each of them starts after those before it. -/
theorem startAfter_ok
    (step : ∀ w rest state, P (w :: rest) state → ∃ next, w.start state = (.ok (), next) ∧ P rest next)
    (started workers : List (Startable S E)) {state : S} (h : P workers state) :
    ∃ last, startAfter started workers state = (.ok (), last) ∧ P [] last := by
  induction workers generalizing started state with
  | nil => exact ⟨state, rfl, h⟩
  | cons w rest ih =>
    obtain ⟨next, begun, h⟩ := step w rest state h
    rw [startAfter, begun]
    exact ih (w :: started) h

end Lifecycle

open Store

namespace Store.Leaf

/-- The worker of the store is stopped and can be started. -/
def IsReady (l : Leaf) : Prop := l.worker.isActive = false ∧ ¬ l.worker.period.isZero

/-- The store with its worker started. -/
def started (l : Leaf) : Leaf := l.setWorker l.worker.start

theorem startWorker_of_ready {l : Leaf} (ready : l.IsReady) : l.startWorker = (.ok (), l.started) := by
  rw [startWorker, if_neg ready.2, if_neg (by simp [ready.1])]
  rfl

theorem worker_started (l : Leaf) : l.started.worker = l.worker.start := by
  cases l <;> rfl

end Store.Leaf

namespace Backend

/-! ### Changing stores by their numbers -/

mutual

/-- Two changes to every store are one. -/
theorem mapLeaves_mapLeaves (f g : Nat → Leaf → Leaf) (first : Nat) : ∀ b : Backend,
    (b.mapLeaves f first).mapLeaves g first = b.mapLeaves (fun n l => g n (f n l)) first
  | leaf _ => rfl
  | tiered tiers => congrArg tiered (mapTiers_mapTiers f g first tiers)

theorem mapTiers_mapTiers (f g : Nat → Leaf → Leaf) (first : Nat) : ∀ tiers : List Backend,
    mapTiers g first (mapTiers f first tiers) = mapTiers (fun n l => g n (f n l)) first tiers
  | [] => rfl
  | tier :: rest => by
    have width : (tier.mapLeaves f first).leaves.length = tier.leaves.length := by
      rw [leaves_mapLeaves, List.length_mapIdx]
    rw [mapTiers, mapTiers, mapTiers, mapLeaves_mapLeaves f g first tier, width,
      mapTiers_mapTiers f g _ rest]

end

mutual

theorem each_id : ∀ b : Backend, b.each id = b
  | leaf _ => rfl
  | tiered tiers => by rw [each_tiered, map_each_id tiers]

theorem map_each_id : ∀ tiers : List Backend, tiers.map (each id) = tiers
  | [] => rfl
  | tier :: rest => by rw [List.map_cons, each_id tier, map_each_id rest]

end

mutual

/-- A change depends on what it makes of the stores that there are. -/
theorem mapLeaves_congr {f g : Nat → Leaf → Leaf} (first : Nat) : ∀ b : Backend,
    (∀ i l, b.leaves[i]? = some l → f (first + i) l = g (first + i) l) →
      b.mapLeaves f first = b.mapLeaves g first
  | leaf l, same => congrArg leaf (same 0 l rfl)
  | tiered tiers, same => congrArg tiered (mapTiers_congr first tiers same)

theorem mapTiers_congr {f g : Nat → Leaf → Leaf} (first : Nat) : ∀ tiers : List Backend,
    (∀ i l, (leavesOf tiers)[i]? = some l → f (first + i) l = g (first + i) l) →
      mapTiers f first tiers = mapTiers g first tiers
  | [], _ => rfl
  | tier :: rest, same => by
    rw [leavesOf] at same
    have here : tier.mapLeaves f first = tier.mapLeaves g first :=
      mapLeaves_congr first tier fun i l hl =>
        same i l (by rw [List.getElem?_append_left (List.getElem?_eq_some_iff.1 hl).1, hl])
    have behind : mapTiers f (first + tier.leaves.length) rest =
        mapTiers g (first + tier.leaves.length) rest :=
      mapTiers_congr _ rest fun i l hl => by
        rw [Nat.add_assoc]
        refine same _ l ?_
        rw [List.getElem?_append_right (Nat.le_add_right _ i), Nat.add_sub_cancel_left, hl]
    rw [mapTiers, mapTiers, here, behind]

end

/-! ### Starting -/

variable {b : Backend}

/-- The backend with the workers of its first `k` stores started. -/
def startedTo (k : Nat) (b : Backend) : Backend :=
  b.mapLeaves (fun n l => if n < k then l.started else l) 0

theorem startWorker_startedTo (ready : b.All Leaf.IsReady) {k : Nat} (h : k < b.leaves.length) :
    (b.startedTo k).startWorker k = (.ok (), b.startedTo (k + 1)) := by
  have here : (b.startedTo k).leaves[k]? = some b.leaves[k] := by
    rw [startedTo, leaves_mapLeaves, List.getElem?_mapIdx, List.getElem?_eq_getElem h]
    simp
  have begun := Leaf.startWorker_of_ready (ready _ (List.getElem_mem h))
  have updated : (b.startedTo k).update k (fun _ => b.leaves[k].started) = b.startedTo (k + 1) := by
    rw [update, startedTo, mapLeaves_mapLeaves, startedTo]
    refine mapLeaves_congr 0 b fun i l hl => ?_
    rw [Nat.zero_add]
    rcases Nat.lt_trichotomy i k with before | same | after
    · rw [if_neg before.ne, if_pos before, if_pos (by omega)]
    · subst same
      rw [List.getElem?_eq_getElem h] at hl
      rw [if_pos rfl, if_pos (by omega), Option.some.inj hl]
    · rw [if_neg after.ne', if_neg (by omega), if_neg (by omega)]
  unfold startWorker
  rw [here]
  simp only [begun, updated]

/-- **A backend whose stores are ready can be started**, and then every worker is started. -/
theorem start_of_ready (ready : b.All Leaf.IsReady) (shelf : Shelf) (now : Instant) :
    b.start shelf now = (.ok (), b.each Leaf.started) := by
  -- So many workers were started, and the others come next.
  let P (rest : List (Startable Backend CacheError)) (state : Backend) : Prop :=
    ∃ k ≤ b.leaves.length, rest = workers shelf now (List.range' k (b.leaves.length - k)) ∧
      state = b.startedTo k
  have step (w) (rest) (state) (h : P (w :: rest) state) :
      ∃ next, w.start state = (.ok (), next) ∧ P rest next := by
    obtain ⟨k, le, listed, rfl⟩ := h
    obtain ⟨left, hleft⟩ : ∃ left, b.leaves.length - k = left := ⟨_, rfl⟩
    rw [hleft] at listed
    cases left with
    | zero => cases listed
    | succ left =>
      obtain ⟨rfl, rfl⟩ := List.cons.inj listed
      refine ⟨b.startedTo (k + 1), startWorker_startedTo ready (by omega), k + 1, by omega, ?_, rfl⟩
      rw [show b.leaves.length - (k + 1) = left by omega]
      rfl
  have first : P (b.lifecycle shelf now) b := by
    refine ⟨0, Nat.zero_le _, ?_, ?_⟩
    · rw [lifecycle, List.range_eq_range', Nat.sub_zero]
    · have unchanged : b.startedTo 0 = b.each id := mapLeaves_congr 0 b fun i l _ => rfl
      rw [unchanged, each_id]
  obtain ⟨last, begun, k, le, done, rfl⟩ := Lifecycle.startAfter_ok step [] _ first
  have all : k = b.leaves.length := by
    have none := congrArg List.length done
    simp only [workers, List.length_map, List.length_range', List.length_nil] at none
    omega
  rw [start, Lifecycle.start, begun, startedTo, each]
  refine congrArg _ (mapLeaves_congr 0 b fun i l hl => if_pos ?_)
  rw [Nat.zero_add, all]
  exact (List.getElem?_eq_some_iff.1 hl).1

end Backend
end VariantCache
