import VariantCache.Proofs.Backend.Starting
import VariantCache.Proofs.Configuration.Building
import VariantCache.Proofs.Configuration.Checking

/-!
# Starting with the settings that load

Checking the settings of the cache leaves every store of what is built with a queue that has room
and a worker that has a period (`sound_of_build`), so all of its workers can be started
(`startable_of_load`). The length of a queue is checked from below only: settings that ask for one
beyond the limit load, and no backend can be built for them
(`load_longQueueFile`).
-/

namespace VariantCache

open Store

namespace Store.Leaf

/-- The worker of the store has a period, and its queue a length that is possible. -/
def IsSound : Leaf → Prop
  | .map m => ¬ m.worker.period.isZero
  | .bounded b =>
    ¬ b.worker.period.isZero ∧ 0 < b.limits.writeBuffer ∧ b.limits.writeBuffer ≤ queueLimit

theorem IsSound.started {l : Leaf} (h : l.IsSound) : l.started.IsSound := by
  cases l <;> exact h

end Store.Leaf

namespace Configuration

open Document CommandLine

/-! ### What is built can be started -/

namespace BackendSettings

/-- The store of a table without a fault and without too long a queue is sound, and ready. -/
theorem sound_of_store? {t : BackendSettings} {isTier : Bool} {l : Leaf}
    (faultless : t.fault? isTier = none) (fits : t.longQueue? = none) (h : t.store? = some l) :
    l.IsSound ∧ l.IsReady := by
  obtain ⟨period, options⟩ := sound_of_faultless faultless
  unfold store? at h
  split at h
  · cases h
    exact ⟨period, rfl, period⟩
  · next bounded =>
    obtain ⟨o, given, valid⟩ := options bounded
    rw [given] at h
    cases h
    have same : o.period = t.period ∧ o.writeBuffer = t.writeBuffer.getD defaultWriteBuffer := by
      unfold boundedOptions at given
      split at given <;> cases given
      exact ⟨rfl, rfl⟩
    have short : ¬ queueLimit < o.writeBuffer := by
      rw [longQueue?, ← same.2] at fits
      simpa [bounded] using fits
    have room : o.writeBuffer ≠ 0 := by
      unfold BoundedOptions.validate at valid
      grind
    rw [← same.1] at period
    exact ⟨⟨period, Nat.pos_of_ne_zero room, Nat.le_of_not_lt short⟩, rfl, period⟩
  · cases h
  · cases h

/-- Every store of a backend that is built is sound, and ready. -/
theorem sound_of_build {s : BackendSettings} {b : Backend} (valid : s.validate = .ok ())
    (fits : s.firstLongQueue? = none) (built : s.build = .ok b) :
    b.All fun l => l.IsSound ∧ l.IsReady := by
  intro l hl
  rw [leaves_build s built] at hl
  obtain ⟨t, ht, store⟩ := List.mem_filterMap.1 hl
  exact sound_of_store? (faultless_of_validate valid t ht)
    (List.findSome?_eq_none_iff.1 fits t ht) store

/-- A backend is built for the settings, unless nothing is to be stored, and its workers start. -/
def Starts (s : BackendSettings) : Prop :=
  ∃ backend, s.backend? = .ok backend ∧ ∀ b ∈ backend, ∀ shelf now,
    (b.start shelf now).1 = .ok () ∧
      (b.start shelf now).2.All fun l => l.worker.isActive ∧ l.IsSound

theorem starts_of_valid {s : BackendSettings} (valid : s.validate = .ok ())
    (fits : s.firstLongQueue? = none) : s.Starts := by
  rcases backend?_of_valid valid with
    ⟨-, -, empty⟩ | ⟨-, -, b, built, some⟩ | ⟨-, n, long, -⟩
  · exact ⟨none, empty, fun b h => nomatch h⟩
  · refine ⟨b, some, fun c hc shelf now => ?_⟩
    obtain rfl := Option.some.inj hc
    have sound := sound_of_build valid fits built
    rw [Backend.start_of_ready (sound.imp fun l h => h.2)]
    refine ⟨rfl, sound.each fun l h => ?_⟩
    rw [Leaf.worker_started]
    exact ⟨rfl, h.1.started⟩
  · rw [long] at fits
    cases fits

end BackendSettings

/-! ### What loads -/

variable {files : Files} {environment : List (String × String)} {invocation : Invocation}
  {s : Settings}

/-- **Settings that load can be started, except for the length of a queue.** The port and the time
of a shutdown are not zero; and where no bounded store asks for a queue beyond the limit, the
backend is built, all its workers start, and their periods and queues are possible ones. With a
queue beyond the limit no backend can be built. -/
theorem startable_of_load (h : load files environment invocation = .ok s) :
    s.server.address.port ≠ 0 ∧ ¬ s.server.gracefulShutdown.isZero ∧
      (s.cache.firstLongQueue? = none ∧ s.cache.Starts ∨
        ∃ n, s.cache.firstLongQueue? = some n ∧ s.cache.backend? = .error (.queueTooLong n)) := by
  obtain ⟨-, d, -, -, checked⟩ := draft_of_load h
  obtain ⟨server, -, valid, cache⟩ := parts_of_ofDraft checked
  obtain ⟨-, -, port, shutdown⟩ := server_of_check server
  rw [← cache] at valid
  refine ⟨port, shutdown, ?_⟩
  rcases BackendSettings.backend?_of_valid valid with
    ⟨-, fits, -⟩ | ⟨-, fits, -⟩ | ⟨-, n, long, failed⟩
  · exact Or.inl ⟨fits, s.cache.starts_of_valid valid fits⟩
  · exact Or.inl ⟨fits, s.cache.starts_of_valid valid fits⟩
  · exact Or.inr ⟨n, long, failed⟩

/-! ### Examples -/

/-- The invocation that checks the configuration. -/
def checkOnly : Invocation := ⟨none, some ⟨.checkConfig, []⟩⟩

/-- A file for a map, and behind it a bounded store in tiers of its own. -/
def nestedFile : Files := [("repcache.toml",
  "[cache]\ntype = \"tiered\"\n[[cache.tiers]]\ntype = \"map\"\n" ++
    "[[cache.tiers]]\ntype = \"tiered\"\n[[cache.tiers.tiers]]\n" ++
    "type = \"bounded\"\nmax_size = 64\naverage_size = 16\n")]

theorem startable_nestedFile : ∃ s, load nestedFile [] checkOnly = .ok s ∧
    s.server.address.port ≠ 0 ∧ ¬ s.server.gracefulShutdown.isZero ∧ s.cache.Starts := by
  obtain ⟨s, loaded, fits⟩ :
      ∃ s, load nestedFile [] checkOnly = .ok s ∧ s.cache.firstLongQueue? = none := by
    decide +kernel
  obtain ⟨port, shutdown, ⟨-, starts⟩ | ⟨n, long, -⟩⟩ := startable_of_load loaded
  · exact ⟨s, loaded, port, shutdown, starts⟩
  · rw [fits] at long
    cases long

/-- A file for a bounded store with a queue one longer than can be. -/
def longQueueFile : Files := [("repcache.toml",
  "[cache]\ntype = \"bounded\"\nmax_size = 1024\naverage_size = 16\n" ++
    "write_buffer = 2305843009213693952\n")]

/-- **Settings that load cannot always be started**: no backend is built for this file. -/
theorem load_longQueueFile :
    ∃ s, load longQueueFile [] checkOnly = .ok s ∧ ¬ s.cache.Starts := by
  obtain ⟨s, loaded, failure⟩ : ∃ s, load longQueueFile [] checkOnly = .ok s ∧
      BackendSettings.failure? s.cache.backend? = some (.queueTooLong 2305843009213693952) := by
    decide +kernel
  refine ⟨s, loaded, fun starts => ?_⟩
  obtain ⟨backend, built, -⟩ := starts
  rw [built] at failure
  cases failure

end Configuration
end VariantCache
