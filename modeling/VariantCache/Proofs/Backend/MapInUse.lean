import VariantCache.Proofs.Backend.GroupInvalidation
import VariantCache.Proofs.Backend.SingleStore
import VariantCache.Proofs.Store.Census

/-!
# A map store in use

A map store stays one whatever is done (`Store.Leaf.perform_map`), so every run from a new
map store ends in a map store (`Site.exists_map_run`). In each of these states the index of
groups is in good order and covers the fresh members, and so a look at a group gives
exactly the entries that are fresh and belong to it, and a sweep leaves exactly the groups
that have some (`Site.looks_at_groups_exact`).
-/

namespace VariantCache

open Store

namespace Store

/-- A map store after an operation. -/
def MapStore.perform (now : Instant) (m : MapStore) : Operation → MapStore
  | .store key s => m.store now key s
  | .load key => (m.load now key).2
  | .delete key => m.delete key
  | .deleteGroup name => m.deleteGroup now name
  | .chore (.look name) => (m.group now name).2
  | .chore .sweep => (m.sweep now).2
  | .chore (.evict _) => m
  | .chore .start => { m with worker := (Leaf.map m).startWorker.2.worker }
  | .chore .stop => { m with worker := m.worker.stop }
  | .chore .wait => { m with worker := m.worker.wake now }
  | .chore .run => m.runUntil now

/-- A map store stays one. -/
theorem Leaf.perform_map (now : Instant) (shelf : Shelf) (m : MapStore) (op : Operation) :
    (map m).perform now shelf op = map (m.perform now op) := by
  cases op with
  | store | load | delete | deleteGroup => rfl
  | chore c =>
    cases c with
    | look | sweep | evict | stop | wait | run => rfl
    | start =>
      show (map m).startWorker.2 = map { m with worker := (map m).startWorker.2.worker }
      unfold startWorker
      split
      · rfl
      · split <;> rfl

end Store

namespace Site

variable {site : Site} {m : MapStore}

/-- A site with a new map store. -/
def ofMap (period : Duration) (shelf : Shelf) (now : Instant) : Site :=
  ⟨.leaf (.map (.empty period)), shelf, now⟩

theorem isNew_ofMap (period : Duration) (shelf : Shelf) (now : Instant) :
    (ofMap period shelf now).IsNew :=
  Backend.all_leaf.2 ⟨period, rfl⟩

/-- The map store of a site after an action. -/
def actOnMap (site : Site) (m : MapStore) (action : Action) : MapStore :=
  match action.root? with
  | some op => m.perform site.now op
  | none => m

theorem backend_step_map (single : site.backend = .leaf (.map m)) (action : Action) :
    (site.step action).backend = .leaf (.map (site.actOnMap m action)) := by
  rw [backend_step single, act, actOnMap]
  cases action.root? with
  | none => rfl
  | some op => exact congrArg Backend.leaf (Leaf.perform_map site.now site.shelf m op)

theorem exists_map_run (single : site.backend = .leaf (.map m)) (actions : List Action) :
    ∃ m', (site.run actions).backend = .leaf (.map m') := by
  unfold run
  induction actions generalizing site m with
  | nil => exact ⟨m, single⟩
  | cons action actions ih => exact ih (backend_step_map single action)

/-- **In every run the index of every store is in good order.** -/
theorem tidy_run (new : site.IsNew) (actions : List Action) :
    (site.run actions).backend.All Leaf.Tidy := by
  have maintained : ∀ now, Backend.Maintained now (fun _ => Leaf.Tidy) (fun _ _ _ => True) :=
    fun now =>
      { grows := fun _ h => h
        version_grows := fun _ h => h
        version_copy := fun h => h
        upkeep := fun keep h => h.upkeep keep
        store := fun h _ => h.store
        found := fun _ _ => trivial }
  exact all_run (P := fun _ => Leaf.Tidy) maintained (fun _ h => h)
    (new.imp fun _ h => h.tidy) fun _ _ _ _ => trivial

/-- What a new map store is after a run: a map store still, whose index covers its members and is
in good order. -/
theorem exists_run_ofMap (period : Duration) (shelf : Shelf) (start : Instant)
    (actions : List Action) :
    ∃ m, ((ofMap period shelf start).run actions).backend = .leaf (.map m) ∧
      m.groups.Covers ((ofMap period shelf start).run actions).now m.members ∧
      m.groups.Tidy := by
  have new := isNew_ofMap period shelf start
  have single : (ofMap period shelf start).backend = .leaf (.map (MapStore.empty period)) := rfl
  obtain ⟨m, after⟩ := exists_map_run single actions
  have indexed := indexed_run new actions
  have tidy := tidy_run new actions
  rw [after] at indexed tidy
  exact ⟨m, after, Backend.all_leaf.1 indexed, Backend.all_leaf.1 tidy⟩

/-- **Looks at groups are exact.** In every state that a map store reaches from its beginning, a
look at a group counts the entries that are fresh and belong to the group, and its date is the
latest one at which one of these expires. No group lists a key twice, and none is kept without
keys. After a sweep no entry is left that has expired, and the index has exactly the groups that
have a fresh member. -/
theorem looks_at_groups_exact (period : Duration) (shelf : Shelf) (start : Instant)
    (actions : List Action) :
    ∃ m now, ((ofMap period shelf start).run actions).backend = .leaf (.map m) ∧
      ((ofMap period shelf start).run actions).now = now ∧
      (∀ name,
        m.groupLength now name = (m.membersOf now name).length ∧
        (m.groupExpiration? now name = none ↔ m.membersOf now name = []) ∧
        ∀ date, m.groupExpiration? now name = some date ↔
          (∃ member ∈ m.membersOf now name, member.2.details.expiration = date) ∧
          ∀ member ∈ m.membersOf now name, member.2.details.expiration ≤ date) ∧
      (∀ name group, m.groups.get? name = some group → group.keys.Nodup ∧ group.keys ≠ []) ∧
      (∀ name, ((m.sweep now).2.groups.get? name).isSome ↔
        (m.sweep now).2.membersOf now name ≠ []) ∧
      ∀ entry ∈ (m.sweep now).2.entries.entries, entry.2.details.expiredAt now = false := by
  obtain ⟨m, after, covers, tidy⟩ := exists_run_ofMap period shelf start actions
  refine ⟨m, _, after, rfl, fun name => ⟨?_, ?_, fun date => ?_⟩, fun name group hg => ?_,
    fun name => ?_, fun entry he => ?_⟩
  · exact MapStore.groupLength_eq covers tidy
  · exact MapStore.groupExpiration?_eq_none_iff covers
  · exact MapStore.groupExpiration?_eq_some_iff covers
  · exact ⟨(tidy name group hg).nodup, (tidy name group hg).nonempty⟩
  · exact MapStore.isSome_get?_sweep_iff covers
  · exact MapStore.not_expiredAt_of_mem_sweep he

end Site
end VariantCache
