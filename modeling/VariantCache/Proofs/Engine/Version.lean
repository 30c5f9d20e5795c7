import VariantCache.Engine.Basic
import VariantCache.Proofs.Backend.Use
import VariantCache.Proofs.Shelf.Payload

/-!
# Versions of productions

A stored version is of a production when it has the details of the production and its
bodies carry the payload of the production (`VersionOf`). Copies are versions of the same
production, conversions between codings make no difference, and so whatever a tree of
stores holds is of a production if everything that was stored was
(`Backend.copied_version`).
-/

namespace VariantCache

open Store

/-! ### Productions -/

namespace Production

/-- The body of a production is a stream of its coding, and this is its payload. -/
def HasPayload (p : Production) (payload : Bytes) : Prop := p.coding.decode p.body = .ok payload

variable {p : Production} {date : Instant} {payload : Bytes}

theorem HasPayload.carry (h : p.HasPayload payload) (date : Instant) :
    (p.represent date).bodies.Carry payload :=
  Bodies.carry_insert_empty h

theorem expiration_represent :
    (p.represent date).details.expiration = date.addSaturating p.lifetime := rfl

/-- Headers of the transport are not kept. -/
theorem not_transport_represent : ∀ field ∈ (p.represent date).details.headers,
    isTransportHeader field.1 = false := by
  intro field hf
  have kept :
      field ∈ (p.headers.map fun field => (Bytes.ofString field.1, Bytes.ofString field.2)).filter
      fun field => !isTransportHeader field.1 := by
    simpa [represent, Representation.insertBody, Details.addHeaders, Details.addGroups,
      Details.untilDate]
      using hf
  simpa using (List.mem_filter.1 kept).2

/-- The groups are those of the production, but the empty name is none. -/
theorem inGroup_represent {name : String} :
    (p.represent date).details.inGroup name = true ↔ name ≠ "" ∧ name ∈ p.groups := by
  have groups : (p.represent date).details.groups =
      ((Details.untilDate (date.addSaturating p.lifetime)).addGroups p.groups).groups := rfl
  rw [Details.inGroup, groups, ← Details.inGroup, Details.inGroup_addGroups]
  simp [Details.inGroup, Details.untilDate]

end Production

/-! ### Versions -/

/-- Says which productions were made for which keys, and when. -/
abbrev Made := CacheKey → Production → Instant → Prop

/-- A stored version is of one production that was made for the key: its details are those of the
production, and its bodies carry the payload of the production. -/
structure VersionOf (p : Production) (date : Instant) (payload : Bytes) (shelf : Shelf)
    (s : Shared) : Prop where
  hasPayload : p.HasPayload payload
  details : s.details = (p.represent date).details
  carries : shelf.Carries s payload

/-- A stored version is of some production that was made for the key. -/
def Version (made : Made) (shelf : Shelf) (key : CacheKey) (s : Shared) : Prop :=
  ∃ p date payload, made key p date ∧ VersionOf p date payload shelf s

variable {made : Made} {shelf larger : Shelf} {key : CacheKey} {s : Shared}

theorem Version.grows (g : shelf.Grows larger) (h : Version made shelf key s) :
    Version made larger key s := by
  obtain ⟨p, date, payload, hm, v⟩ := h
  exact ⟨p, date, payload, hm, v.hasPayload, v.details, v.carries.grows g⟩

theorem Version.copy (h : Version made shelf key s) :
    Version made (shelf.copy s).2 key (shelf.copy s).1 := by
  obtain ⟨p, date, payload, hm, v⟩ := h
  exact ⟨p, date, payload, hm, v.hasPayload, v.details, v.carries.copy⟩

theorem Version.fetch {t : Shared} {coding : Coding} (h : Version made shelf key s)
    (real : coding.isReal = true) : Version made (shelf.fetch t coding).2 key s := by
  obtain ⟨p, date, payload, hm, v⟩ := h
  exact ⟨p, date, payload, hm, v.hasPayload, v.details, v.carries.fetch real⟩

theorem Version.mono {more : Made} (h : Version made shelf key s)
    (le : ∀ p date, made key p date → more key p date) : Version more shelf key s := by
  obtain ⟨p, date, payload, hm, v⟩ := h
  exact ⟨p, date, payload, le p date hm, v⟩

namespace Backend

/-- Versions of productions stay that in a tree. -/
theorem copied_version (made : Made) : Copied (Version made) (fun _ => True) where
  grows := Version.grows
  copy v _ := ⟨v.copy, trivial⟩

/-- What a load of a tree gives has not expired. -/
theorem le_expiration_of_load {now : Instant} {b : Backend}
    (h : (b.load now key shelf).1 = some s) :
    now ≤ s.details.expiration := by
  have fresh : Maintained now (fun _ _ => True) (fun _ _ s => now ≤ s.details.expiration) :=
    { grows := fun _ h => h
      version_grows := fun _ h => h
      version_copy := fun h => h
      upkeep := fun _ h => h
      store := fun h _ => h
      found := fun _ h => Leaf.le_expiration_of_load h }
  exact (fresh.all_load shelf b fun _ _ => trivial).2 s h

end Backend
end VariantCache
