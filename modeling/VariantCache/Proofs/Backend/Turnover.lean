import VariantCache.Proofs.Backend.MapInUse

/-!
# Where the entries of a map store come from and go

An entry comes into a map store by a store under a key that has none. It goes by a
deletion of its key, by the deletion of a group, or because it has expired, by a load of
its key or a sweep; only the last two are evictions. So the books balance in every run
(`Site.tally_balances`): whatever came is there still, or went in one of these ways
(`Site.entries_accounted`). What each operation leaves of the entries is known exactly:
`MapStore.get?_after_load`, `MapStore.get?_sweep`, `MapStore.get?_after_deleteGroup`.
-/

namespace VariantCache

open Store

/-! ### Entries that are lost -/

namespace Table

variable {K V : Type} [DecidableEq K] {t later : Table K V} {key : K} {value : V}

/-- The entries whose keys another table does not have. -/
def lost (t later : Table K V) : List (K × V) :=
  t.entries.filter fun entry => (later.get? entry.1).isNone

theorem mem_lost {entry : K × V} :
    entry ∈ t.lost later ↔ t.get? entry.1 = some entry.2 ∧ later.get? entry.1 = none := by
  rw [lost, List.mem_filter, ← get?_eq_some_iff, Option.isNone_iff_eq_none]

theorem lost_self (t : Table K V) : t.lost t = [] := by
  rw [List.eq_nil_iff_forall_not_mem]
  intro entry he
  obtain ⟨here, gone⟩ := mem_lost.1 he
  rw [here] at gone
  cases gone

/-- What is not kept is lost. -/
theorem lost_filter (t : Table K V) (keep : K → V → Bool) :
    t.lost (t.filter keep) = t.entries.filter fun entry => !keep entry.1 entry.2 := by
  refine List.filter_congr fun entry he => ?_
  rw [get?_filter, (get?_eq_some_iff t _ _).2 he, Option.filter_some]
  cases keep entry.1 entry.2 <;> rfl

/-- What is left and what is lost are all. -/
theorem size_filter_add_lost (t : Table K V) (keep : K → V → Bool) :
    (t.filter keep).size + (t.lost (t.filter keep)).length = t.size := by
  rw [lost_filter]
  exact (List.length_eq_length_filter_add _).symm

theorem eraseAll_eq_filter (t : Table K V) (keys : List K) :
    t.eraseAll keys = t.filter fun k _ => k ∉ keys := by
  unfold eraseAll
  induction keys generalizing t with
  | nil => simp [filter]
  | cons first rest ih =>
    rw [List.foldl_cons, ih]
    simp only [erase, filter, List.filter_filter, mk.injEq]
    refine List.filter_congr fun entry _ => ?_
    by_cases h : entry.1 = first <;> simp [h]

theorem mem_keys_iff : key ∈ t.entries.map (·.1) ↔ (t.get? key).isSome := by
  simp [Option.isSome_iff_exists, get?_eq_some_iff]

/-- A key is erased with its entry, if it has one. -/
theorem size_erase (t : Table K V) (key : K) :
    (t.erase key).size + (if (t.get? key).isSome then 1 else 0) = t.size := by
  have keys : (t.erase key).entries.map (·.1) = (t.entries.map (·.1)).erase key := by
    rw [t.distinct.erase_eq_filter, List.filter_map]
    rfl
  have size : (t.erase key).size = ((t.entries.map (·.1)).erase key).length := by
    rw [← keys, List.length_map, Table.size]
  by_cases h : key ∈ t.entries.map (·.1)
  · have pos := List.length_pos_of_mem h
    rw [size, List.length_erase_of_mem h, if_pos (mem_keys_iff.1 h), Nat.sub_add_cancel pos,
      List.length_map, Table.size]
  · rw [size, List.erase_of_not_mem h, if_neg (mt mem_keys_iff.2 h), List.length_map, Table.size,
      Nat.add_zero]

/-- A new value comes in the place of the old one, if there is one. -/
theorem size_insert (t : Table K V) (key : K) (value : V) :
    (t.insert key value).size = t.size + if (t.get? key).isNone then 1 else 0 := by
  have erased := t.size_erase key
  have inserted : (t.insert key value).size = (t.erase key).size + 1 := rfl
  cases h : t.get? key with
  | none =>
    rw [h, Option.isSome_none, if_neg Bool.false_ne_true] at erased
    rw [Option.isNone_none, if_pos rfl, inserted, ← erased, Nat.add_zero]
  | some old =>
    rw [h, Option.isSome_some, if_pos rfl] at erased
    rw [Option.isNone_some, if_neg Bool.false_ne_true, inserted, ← erased, Nat.add_zero]

theorem lost_insert (t : Table K V) (key : K) (value : V) : t.lost (t.insert key value) = [] := by
  rw [List.eq_nil_iff_forall_not_mem]
  intro entry he
  obtain ⟨here, gone⟩ := mem_lost.1 he
  rw [get?_insert] at gone
  split at gone
  · cases gone
  · rw [here] at gone
    cases gone

omit [DecidableEq K] in
theorem filter_true (t : Table K V) : (t.filter fun _ _ => true) = t := by
  cases t
  simp [filter]

end Table

/-! ### Single operations -/

/-- The operation is one of those that evict what has expired. -/
def Operation.evicts : Operation → Bool
  | .load _ | .chore .sweep | .chore .run => true
  | .store _ _ | .delete _ | .deleteGroup _ | .chore (.look _) | .chore (.evict _)
  | .chore .start | .chore .stop | .chore .wait => false

namespace Store.MapStore

/-- The entries that an operation removes. -/
def removed (now : Instant) (m : MapStore) (op : Operation) : List (CacheKey × Shared) :=
  m.entries.lost (m.perform now op).entries

/-- How many entries an operation makes under keys that had none. -/
def created (_ : Instant) (m : MapStore) : Operation → Nat
  | .store key _ => if (m.entries.get? key).isNone then 1 else 0
  | .load _ | .delete _ | .deleteGroup _ | .chore _ => 0

/-- How many entries the deletion of a key removes. -/
def deleted (now : Instant) (m : MapStore) : Operation → Nat
  | .delete key => (m.removed now (.delete key)).length
  | .store _ _ | .load _ | .deleteGroup _ | .chore _ => 0

/-- How many entries the deletion of a group removes. -/
def groupDeleted (now : Instant) (m : MapStore) : Operation → Nat
  | .deleteGroup name => (m.removed now (.deleteGroup name)).length
  | .store _ _ | .load _ | .delete _ | .chore _ => 0

variable (now : Instant) (m : MapStore)

/-- What is no store leaves some of the entries, and brings in none. -/
theorem exists_entries_perform {op : Operation} (quiet : op.isStore = false) :
    ∃ keep, (m.perform now op).entries = m.entries.filter keep := by
  have same {other : MapStore} (h : other.entries = m.entries) :
      ∃ keep, other.entries = m.entries.filter keep :=
    ⟨fun _ _ => true, by rw [Table.filter_true, h]⟩
  cases op with
  | store key s => cases quiet
  | load key =>
    show ∃ keep, (m.load now key).2.entries = _
    unfold MapStore.load
    split
    · exact same rfl
    · split
      · exact ⟨fun k _ => k != key, rfl⟩
      · exact same rfl
  | delete key => exact ⟨fun k _ => k != key, rfl⟩
  | deleteGroup name => exact ⟨_, Table.eraseAll_eq_filter _ _⟩
  | chore c =>
    cases c with
    | sweep => exact ⟨fun _ s => !s.details.expiredAt now, rfl⟩
    | look | evict | start | stop | wait => exact same rfl
    | run =>
      show ∃ keep, (m.runUntil now).entries = _
      unfold MapStore.runUntil
      simp only
      split
      · exact ⟨fun _ s => !s.details.expiredAt now, rfl⟩
      · exact same rfl

/-- Entries come by stores under new keys, and what goes is removed. -/
theorem size_perform (op : Operation) :
    (m.perform now op).entries.size + (m.removed now op).length =
      m.entries.size + m.created now op := by
  cases quiet : op.isStore with
  | true =>
    cases op with
    | store key s =>
      have nothing : m.removed now (.store key s) = [] := Table.lost_insert _ _ _
      rw [nothing]
      exact m.entries.size_insert key s
    | load | delete | deleteGroup | chore => cases quiet
  | false =>
    obtain ⟨keep, kept⟩ := exists_entries_perform now m quiet
    have none : m.created now op = 0 := by
      cases op with
      | store => cases quiet
      | load | delete | deleteGroup | chore => rfl
    rw [removed, kept, none]
    exact Table.size_filter_add_lost _ _

/-- What a sweep removes is counted as evicted. -/
theorem evictions_sweep :
    (m.sweep now).2.evictions =
      m.evictions + (m.entries.lost (m.sweep now).2.entries).length := by
  have sizes := m.entries.size_filter_add_lost fun _ s => !s.details.expiredAt now
  have count : (m.sweep now).2.evictions =
      m.evictions + (m.entries.size - (m.sweep now).2.entries.size) := rfl
  have entries : (m.sweep now).2.entries =
      m.entries.filter fun _ s => !s.details.expiredAt now := rfl
  rw [count, entries]
  omega

/-- What a load removes is counted as evicted. -/
theorem evictions_load (key : CacheKey) :
    (m.load now key).2.evictions =
      m.evictions + (m.entries.lost (m.load now key).2.entries).length := by
  unfold MapStore.load
  split
  · simp [Table.lost_self]
  · next s hs =>
    split
    · have erased := m.entries.size_erase key
      have sizes := m.entries.size_filter_add_lost fun k _ => k != key
      rw [hs, Option.isSome_some, if_pos rfl] at erased
      unfold Table.erase at *
      simp only
      omega
    · simp [Table.lost_self]

/-- **Evictions are what loads and sweeps remove**, each entry once. -/
theorem evictions_perform (op : Operation) :
    (m.perform now op).evictions =
      m.evictions + if op.evicts then (m.removed now op).length else 0 := by
  cases op with
  | store | delete | deleteGroup => rfl
  | load key => exact m.evictions_load now key
  | chore c =>
    cases c with
    | look | evict | start | stop | wait => rfl
    | sweep => exact m.evictions_sweep now
    | run =>
      show (m.runUntil now).evictions =
        m.evictions + (m.entries.lost (m.runUntil now).entries).length
      unfold MapStore.runUntil
      simp only
      split
      · exact evictions_sweep now { m with worker := (m.worker.runUntil now).2 }
      · simp [Table.lost_self]

/-- Whatever is removed is removed in one of the three ways. -/
theorem length_removed (op : Operation) :
    (m.removed now op).length =
      (if op.evicts then (m.removed now op).length else 0) + m.deleted now op +
        m.groupDeleted now op := by
  have nothing {op : Operation} (h : (m.perform now op).entries = m.entries) :
      m.removed now op = [] := by
    rw [removed, h, Table.lost_self]
  cases op with
  | store key s =>
    have nothing : m.removed now (.store key s) = [] := Table.lost_insert _ _ _
    rw [nothing]
    rfl
  | load key => rfl
  | delete key => simp [Operation.evicts, deleted, groupDeleted]
  | deleteGroup name => simp [Operation.evicts, deleted, groupDeleted]
  | chore c =>
    cases c with
    | sweep | run => rfl
    | look | evict | start | stop | wait =>
      rw [nothing rfl]
      rfl

/-- **The books of one operation balance.** -/
theorem balance_perform (op : Operation) :
    m.created now op + (m.entries.size + m.evictions) =
      (m.perform now op).entries.size + (m.perform now op).evictions + m.deleted now op +
        m.groupDeleted now op := by
  have size := m.size_perform now op
  have evictions := m.evictions_perform now op
  have removed := m.length_removed now op
  omega

/-! ### What is left -/

variable {now m}

/-- A load leaves all entries but its own, if that has expired. -/
theorem get?_after_load (key k : CacheKey) :
    (m.load now key).2.entries.get? k =
      if k = key then (m.entries.get? k).filter fun s => !s.details.expiredAt now
      else m.entries.get? k := by
  unfold MapStore.load
  split
  · next absent =>
    split
    · next same => rw [same, absent, Option.filter_none]
    · rfl
  · next s hs =>
    cases expired : s.details.expiredAt now with
    | true =>
      simp only [if_true]
      rw [Table.get?_erase]
      split
      · next same => rw [same, hs, Option.filter_some, expired]; rfl
      · rfl
    | false =>
      simp only [Bool.false_eq_true, if_false]
      split
      · next same => rw [same, hs, Option.filter_some, expired]; rfl
      · rfl

/-- **The deletion of a group removes the fresh entries that belong to it**, and no others. -/
theorem get?_after_deleteGroup (covers : m.groups.Covers now m.members) (name : String)
    (k : CacheKey) :
    (m.deleteGroup now name).entries.get? k =
      (m.entries.get? k).filter fun s => s.details.expiredAt now || !s.details.inGroup name := by
  have taken : k ∈ (m.groups.take name now m.members).1 ↔
      ∃ s, m.entries.get? k = some s ∧ now ≤ s.details.expiration ∧
        s.details.inGroup name = true := by
    rw [GroupIndex.mem_take_iff, and_iff_right_of_imp (covers name k), isMember_iff]
    simp only [load_eq_some_iff, and_assoc]
  rw [get?_deleteGroup]
  cases hk : m.entries.get? k with
  | none => exact ite_self _
  | some s =>
    simp only [hk, Option.some.injEq, exists_eq_left'] at taken
    rw [Option.filter_some, Details.expiredAt]
    by_cases fresh : now ≤ s.details.expiration
    · rw [decide_eq_false (Instant.not_lt.2 fresh), Bool.false_or]
      cases hg : s.details.inGroup name with
      | true => simp [taken, fresh, hg]
      | false => simp [taken, hg]
    · have expired : s.details.expiration < now := Int.not_le.1 fresh
      simp [taken, fresh, expired]

/-- Only what has expired is evicted, and a load evicts nothing but what is under its key. -/
theorem of_mem_removed {op : Operation} (evicts : op.evicts = true) {entry : CacheKey × Shared}
    (h : entry ∈ m.removed now op) :
    entry.2.details.expiration < now ∧ ∀ key, op = .load key → entry.1 = key := by
  obtain ⟨here, gone⟩ := Table.mem_lost.1 h
  have expired (h : (some entry.2).filter (fun s => !s.details.expiredAt now) = none) :
      entry.2.details.expiration < now := by
    simpa [Option.filter_some, Details.expiredAt] using h
  have swept (other : MapStore) (same : other.entries = m.entries)
      (gone : (other.sweep now).2.entries.get? entry.1 = none) :
      entry.2.details.expiration < now := by
    rw [get?_sweep, same, here] at gone
    exact expired gone
  cases op with
  | store | delete | deleteGroup => cases evicts
  | load key =>
    replace gone : (m.load now key).2.entries.get? entry.1 = none := gone
    rw [get?_after_load, here] at gone
    split at gone
    · next same =>
      refine ⟨expired gone, fun key' he => ?_⟩
      rw [same, Operation.load.inj he]
    · cases gone
  | chore c =>
    refine ⟨?_, fun key he => absurd he (by simp)⟩
    cases c with
    | look | evict | start | stop | wait => cases evicts
    | sweep => exact swept m rfl gone
    | run =>
      replace gone : (m.runUntil now).entries.get? entry.1 = none := gone
      unfold MapStore.runUntil at gone
      simp only at gone
      split at gone
      · exact swept { m with worker := (m.worker.runUntil now).2 } rfl gone
      · rw [here] at gone
        cases gone

end Store.MapStore

/-! ### Runs -/

namespace Site

variable {site : Site} {m : MapStore}

/-- The sum of what is counted at each operation on a map store in a run. -/
def tally (count : Instant → MapStore → Operation → Nat) (site : Site) : List Action → Nat
  | [] => 0
  | action :: rest =>
    (match site.backend, action.root? with
      | .leaf (.map m), some op => count site.now m op
      | _, _ => 0) + (site.step action).tally count rest

/-- **The books balance in every run.** -/
theorem tally_balances (single : site.backend = .leaf (.map m)) {last : MapStore}
    {actions : List Action} (after : (site.run actions).backend = .leaf (.map last)) :
    site.tally MapStore.created actions + (m.entries.size + m.evictions) =
      last.entries.size + last.evictions + site.tally MapStore.deleted actions +
        site.tally MapStore.groupDeleted actions := by
  induction actions generalizing site m with
  | nil =>
    obtain rfl : m = last := by simpa [run, single] using after
    simp [tally]
  | cons action actions ih =>
    have rest := ih (backend_step_map single action) after
    simp only [tally, single]
    cases hop : action.root? with
    | none =>
      have idle : site.actOnMap m action = m := by rw [actOnMap, hop]
      rw [idle] at rest
      simp only
      omega
    | some op =>
      have acted : site.actOnMap m action = m.perform site.now op := by rw [actOnMap, hop]
      have first := m.balance_perform site.now op
      rw [acted] at rest
      simp only
      omega

/-- **Every entry of a map store is accounted for once.** In every run from a new map store the
entries that were made under new keys are in it still, were evicted, or went when their key or
one of their groups was deleted. In every state that it reaches, only loads and sweeps evict
entries, which have expired then, and count each of them once; a load leaves all entries but its
own expired one, a sweep all but the expired ones, and the deletion of a group all but the fresh
ones that belong to it. -/
theorem entries_accounted (period : Duration) (shelf : Shelf) (start : Instant)
    (actions : List Action) :
    ∃ m now, ((ofMap period shelf start).run actions).backend = .leaf (.map m) ∧
      ((ofMap period shelf start).run actions).now = now ∧
      (ofMap period shelf start).tally MapStore.created actions =
        m.entries.size + m.evictions + (ofMap period shelf start).tally MapStore.deleted actions +
          (ofMap period shelf start).tally MapStore.groupDeleted actions ∧
      (∀ op,
        (((ofMap period shelf start).run actions).step (.perform [] op)).backend =
          .leaf (.map (m.perform now op)) ∧
        (m.perform now op).evictions =
          m.evictions + (if op.evicts then (m.removed now op).length else 0) ∧
        (op.evicts = true → ∀ entry ∈ m.removed now op,
          entry.2.details.expiration < now ∧ ∀ key, op = .load key → entry.1 = key)) ∧
      (∀ key k, (m.load now key).2.entries.get? k =
        if k = key then (m.entries.get? k).filter fun s => !s.details.expiredAt now
        else m.entries.get? k) ∧
      (∀ k, (m.sweep now).2.entries.get? k =
        (m.entries.get? k).filter fun s => !s.details.expiredAt now) ∧
      ∀ name k, (m.deleteGroup now name).entries.get? k =
        (m.entries.get? k).filter fun s =>
          s.details.expiredAt now || !s.details.inGroup name := by
  obtain ⟨m, after, covers, -⟩ := exists_run_ofMap period shelf start actions
  have single : (ofMap period shelf start).backend = .leaf (.map (MapStore.empty period)) := rfl
  refine ⟨m, _, after, rfl, ?_, fun op => ⟨?_, ?_, ?_⟩, ?_, ?_, ?_⟩
  · exact tally_balances single after
  · exact backend_step_map after (.perform [] op)
  · exact m.evictions_perform _ op
  · exact fun evicts entry => MapStore.of_mem_removed evicts
  · exact MapStore.get?_after_load
  · exact m.get?_sweep _
  · exact MapStore.get?_after_deleteGroup covers

end Site
end VariantCache
