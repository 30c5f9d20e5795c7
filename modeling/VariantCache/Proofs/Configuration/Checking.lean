import VariantCache.Configuration.Load
import VariantCache.Proofs.Configuration.Tables
import VariantCache.Proofs.Net.Address

/-!
# What loading has checked

Settings that load come from a draft (`draft_of_load`), whose parts were checked one after the other
(`parts_of_ofDraft`). So the address that the server listens on is that of the host and the port in
the draft, and neither the port nor the time of a shutdown is zero (`server_of_check`).
-/

namespace VariantCache.Configuration

open Document CommandLine

variable {files : Files} {environment : List (String × String)} {invocation : Invocation}
  {s : Settings} {d : Draft}

/-- Whether something succeeds with a result of some property is told by running it. -/
instance decidableOk {α ε : Type} {p : α → Prop} [DecidablePred p] :
    (x : Except ε α) → Decidable (∃ a, x = .ok a ∧ p a)
  | .error _ => isFalse fun ⟨_, same, _⟩ => nomatch same
  | .ok a => decidable_of_iff (p a) ⟨fun h => ⟨a, rfl, h⟩, fun ⟨_, same, h⟩ => Except.ok.inj same ▸ h⟩

/-- The draft that the layers and the command line give, if the layers can be read as one. -/
def draft? (below : List Layer) (invocation : Invocation) : Option Draft :=
  (Draft.ofValue? (merge below)).map fun draft => invocation.overrides.foldl Draft.override draft

theorem load_of_layers {below : List Layer}
    (read : layers files environment invocation.configFile = .ok below) :
    load files environment invocation =
      match draft? below invocation with
      | none => .error .illTyped
      | some draft => Settings.ofDraft draft := by
  unfold load draft?
  rw [read]
  show (match Draft.ofValue? (merge below) with | none => _ | some draft => _) = _
  cases Draft.ofValue? (merge below) <;> rfl

/-- Settings that load are a draft that was checked. -/
theorem draft_of_load (h : load files environment invocation = .ok s) :
    ∃ below draft, layers files environment invocation.configFile = .ok below ∧
      draft? below invocation = some draft ∧ Settings.ofDraft draft = .ok s := by
  cases read : layers files environment invocation.configFile with
  | error e =>
    unfold load at h
    rw [read] at h
    cases h
  | ok below =>
    rw [load_of_layers read] at h
    cases draft : draft? below invocation with
    | none => rw [draft] at h; cases h
    | some draft' => rw [draft] at h; exact ⟨below, draft', rfl, draft, h⟩

/-- A draft is checked part by part. -/
theorem parts_of_ofDraft (h : Settings.ofDraft d = .ok s) :
    Settings.checkServer d.server = .ok s.server ∧ Settings.checkLogging d.logging = .ok s.logging ∧
      d.cache.validate = .ok () ∧ s.cache = d.cache := by
  unfold Settings.ofDraft at h
  cases server : Settings.checkServer d.server with
  | error e => rw [server] at h; cases h
  | ok server' =>
    cases logging : Settings.checkLogging d.logging with
    | error e => rw [server, logging] at h; cases h
    | ok logging' =>
      cases cache : d.cache.validate with
      | error e => rw [server, logging, cache] at h; cases h
      | ok _ =>
        rw [server, logging, cache] at h
        cases h
        exact ⟨rfl, rfl, rfl, rfl⟩

/-- What the server listens on, and for how long it may shut down. -/
theorem server_of_check {draft : ServerDraft} {server : ServerSettings}
    (h : Settings.checkServer draft = .ok server) :
    Net.Address.parse? s!"{draft.host.getD defaultHost}:{draft.port.getD defaultPort}" =
        some server.address ∧
      server.gracefulShutdown = .ofSeconds (draft.gracefulShutdown.getD defaultGracefulShutdown) ∧
      server.address.port ≠ 0 ∧ ¬ server.gracefulShutdown.isZero := by
  simp only [Settings.checkServer] at h
  split at h
  · cases h
  next port =>
  split at h
  · cases h
  next address parsed =>
  split at h
  · cases h
  next seconds =>
  cases h
  refine ⟨parsed, rfl, ?_, ?_⟩
  · rwa [Net.Address.port_of_parse? parsed]
  · simpa [Duration.ofSeconds, Duration.isZero] using seconds

end VariantCache.Configuration
