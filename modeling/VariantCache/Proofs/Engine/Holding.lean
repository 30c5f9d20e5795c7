import VariantCache.Engine.Basic
import VariantCache.Proofs.Backend.Use

/-!
# What the backend of an engine holds

A property of versions is one of all versions that the backend of an engine holds
(`Engine.HoldsOnly`). Invalidations and chores bring nothing in. A store brings in what is
stored and copies of it, and a load copies of what is found: so the property goes through
both when copies have it too (`HoldsOnly.load`, `HoldsOnly.store`).
-/

namespace VariantCache

open Store

/-- The engine after a chore of a part of its backend. -/
def Engine.chore (e : Engine) (now : Instant) (path : List Nat) (c : Chore) : Engine :=
  { e with
    backend := e.backend.map fun b =>
      ((b.zoom (fun part => ((), c.perform now e.shelf part)) path).map (·.2)).getD b }

namespace Engine

variable {V W : Shelf → CacheKey → Shared → Prop} {T : Shared → Prop} {now : Instant} {e : Engine}
  {key : CacheKey} {s : Shared}

/-- Every version that the backend holds has a property, fresh or not. -/
def HoldsOnly (V : Shelf → CacheKey → Shared → Prop) (e : Engine) : Prop :=
  ∀ b, e.backend = some b → b.All fun l => ∀ k t {date}, l.Holds date k t → V e.shelf k t

/-- A change of the shelf, of the counts, or of what is offered. -/
theorem HoldsOnly.imp {other : Engine} (h : e.HoldsOnly V) (backend : other.backend = e.backend)
    (weaker : ∀ k t, V e.shelf k t → W other.shelf k t) : other.HoldsOnly W := by
  intro b hb l hl k t date ht
  rw [backend] at hb
  exact weaker k t (h b hb l hl k t ht)

/-- What brings nothing into the stores of the backend keeps the property. -/
theorem HoldsOnly.of_less (h : e.HoldsOnly V) {f : Backend → Backend}
    (keeps : ∀ {P : Leaf → Prop},
      (∀ {l less : Leaf}, (∀ {date k t}, less.Holds date k t → l.Holds date k t) → P l → P less) →
        ∀ b : Backend, b.All P → (f b).All P) :
    { e with backend := e.backend.map f }.HoldsOnly V := by
  intro b hb
  obtain ⟨old, ho, rfl⟩ := Option.map_eq_some_iff.1 hb
  refine keeps (fun less only k t _ ht => ?_) old (h old ho)
  exact only k t (less ht)

theorem HoldsOnly.invalidate (h : e.HoldsOnly V) (key : CacheKey) :
    (e.invalidate key).HoldsOnly V :=
  h.of_less fun keeps _ all => all.each fun l => keeps fun ht =>
    ht.of_fewer (Leaf.fewer_delete key l) (Leaf.queued_delete key l)

theorem HoldsOnly.invalidateGroup (h : e.HoldsOnly V) (now : Instant) (name : String) :
    (e.invalidateGroup now name).HoldsOnly V :=
  h.of_less fun keeps _ all => all.each fun l => keeps fun ht =>
    ht.of_fewer (Leaf.fewer_deleteGroup now name l) (Leaf.queued_deleteGroup now name l)

theorem HoldsOnly.chore (h : e.HoldsOnly V) (now : Instant) (path : List Nat) (c : Chore) :
    (e.chore now path c).HoldsOnly V := by
  refine h.of_less fun keeps b all => ?_
  cases hz : b.zoom (fun part => ((), c.perform now e.shelf part)) path with
  | none => exact all
  | some result =>
    exact Backend.all_zoom (fun _ => id)
      (fun part hp => hp.chore (fun _ _ chore => keeps fun ht => ht.of_chore chore) c) all hz

/-! ### Loads and stores -/

/-- What is found has the property, and all that the backend holds after the load. -/
theorem HoldsOnly.load (copied : Backend.Copied V T) (h : e.HoldsOnly V)
    (known : ∀ s, (e.load now key).1 = some s → T s) :
    (e.load now key).2.HoldsOnly V ∧
      ∀ s, (e.load now key).1 = some s → V (e.load now key).2.shelf key s := by
  unfold Engine.load at known ⊢
  cases hb : e.backend with
  | none =>
    simp only
    refine ⟨fun b hb' => ?_, fun s hs => ?_⟩
    · rw [hb] at hb'
      cases hb'
    · cases hs
  | some b =>
    rw [hb] at known
    simp only at known ⊢
    have loaded := (copied.kept now).all_load
      (fun only found t => ⟨only key _ (.inl found), t⟩) e.shelf b (h b hb) known
    refine ⟨fun b' hb' => ?_, fun s hs => (loaded.2 s hs).1⟩
    obtain rfl := Option.some.inj hb'
    exact loaded.1

theorem HoldsOnly.store (copied : Backend.Copied V T) (h : e.HoldsOnly V) (v : V e.shelf key s)
    (known : T s) : (e.store now key s).HoldsOnly V := by
  unfold Engine.store
  cases hb : e.backend with
  | none =>
    simp only
    exact h
  | some b =>
    intro b' hb'
    obtain rfl := Option.some.inj hb'
    exact (copied.kept now).all_store s e.shelf b (h b hb) ⟨v, known⟩

/-- What stands on the shelf stays where it is. -/
theorem grows_load (e : Engine) (now : Instant) (key : CacheKey) :
    e.shelf.Grows (e.load now key).2.shelf := by
  unfold Engine.load
  cases e.backend with
  | none => exact e.shelf.grows_refl
  | some b => exact Backend.grows_load now key e.shelf b

end Engine
end VariantCache
