import VariantCache.Proofs.Backend.Tree
import VariantCache.Proofs.Shelf.Growth
import VariantCache.Proofs.Store.Versions

/-!
# Operations on a tree of stores

A property of the stores of a tree goes through loads and stores when every single store
keeps it, and the versions that it lets in may be copied (`Kept`). Loads and stores are
the operations that join several stores: they bring copies from one store into others. All
others work on the stores one by one. What a load finds is let in again: by the property of
the store alone (`Maintained`), or because of something that is known of what is found
(`Kept.all_load`).

The main case is a property of versions that copies have too: if every version that the
stores of a tree hold has it, that stays so (`maintained_holds`).
-/

namespace VariantCache

open Store

/-! ### Workers that are started and stopped together -/

namespace Lifecycle

variable {S E : Type} {P : S → Prop}

theorem stopAll_keeps {workers : List (Startable S E)}
    (stops : ∀ w ∈ workers, ∀ state, P state → P (w.stop state)) {state : S} (h : P state) :
    P (stopAll workers state) := by
  unfold stopAll
  induction workers generalizing state with
  | nil => exact h
  | cons w rest ih =>
    exact ih (fun w hw => stops w (List.mem_cons_of_mem _ hw)) (stops w List.mem_cons_self state h)

theorem startAfter_keeps {workers started : List (Startable S E)}
    (starts : ∀ w ∈ workers, ∀ state, P state → P (w.start state).2)
    (stops : ∀ w ∈ started ++ workers, ∀ state, P state → P (w.stop state)) {state : S}
    (h : P state) :
    P (startAfter started workers state).2 := by
  induction workers generalizing started state with
  | nil => exact h
  | cons w rest ih =>
    have begun := starts w List.mem_cons_self state h
    rw [startAfter]
    split
    · next hw =>
      rw [hw] at begun
      refine ih (fun w hw => starts w (List.mem_cons_of_mem _ hw)) (fun v hv => stops v ?_) begun
      simp only [List.cons_append, List.mem_cons, List.mem_append] at hv ⊢
      exact hv.elim (fun e => .inr (.inl e)) (·.imp id .inr)
    · next hw =>
      rw [hw] at begun
      exact stopAll_keeps (fun v hv => stops v (List.mem_append_left _ hv)) begun

/-- Starting keeps what each worker keeps when it is started and when it is stopped. -/
theorem start_keeps {workers : Lifecycle S E}
    (starts : ∀ w ∈ workers, ∀ state, P state → P (w.start state).2)
    (stops : ∀ w ∈ workers, ∀ state, P state → P (w.stop state)) {state : S} (h : P state) :
    P (workers.start state).2 :=
  startAfter_keeps starts stops h

theorem stop_keeps {workers : Lifecycle S E}
    (stops : ∀ w ∈ workers, ∀ state, P state → P (w.stop state)) {state : S} (h : P state) :
    P (workers.stop state) :=
  stopAll_keeps (fun w hw => stops w (List.mem_reverse.1 hw)) h

end Lifecycle

namespace Backend

/-! ### The shelf -/

section

variable (now : Instant) (key : CacheKey)

mutual

theorem grows_store (s : Shared) (shelf : Shelf) :
    ∀ b : Backend, shelf.Grows (b.store now key s shelf).1
  | leaf _ => shelf.grows_refl
  | tiered [] => shelf.grows_refl
  | tiered (first :: rest) => (grows_storeCopies s shelf rest).trans (grows_store s _ first)

theorem grows_storeCopies (s : Shared) (shelf : Shelf) :
    ∀ tiers : List Backend, shelf.Grows (storeCopies now key s shelf tiers).1
  | [] => shelf.grows_refl
  | tier :: rest =>
    ((shelf.grows_copy s).trans (grows_store _ _ tier)).trans (grows_storeCopies s _ rest)

end

mutual

theorem grows_load (shelf : Shelf) : ∀ b : Backend, shelf.Grows (b.load now key shelf).2.1
  | leaf _ => shelf.grows_refl
  | tiered tiers => grows_loadTiers shelf tiers

theorem grows_loadTiers (shelf : Shelf) :
    ∀ tiers : List Backend, shelf.Grows (loadTiers now key shelf tiers).2.1
  | [] => shelf.grows_refl
  | tier :: rest => by
    have first := grows_load shelf tier
    rw [loadTiers]
    split
    · next h =>
      rw [h] at first
      exact first
    · next shelf' tier' h =>
      rw [h] at first
      have others := grows_loadTiers shelf' rest
      split
      · next h =>
        rw [h] at others
        exact first.trans others
      · next h =>
        rw [h] at others
        exact ((first.trans others).trans (Shelf.grows_copy _ _)).trans
          (grows_store now key _ _ tier')

end

end

variable {now : Instant} {key : CacheKey}

/-! ### Loads and stores -/

/-- What must be known of a property `Q` of single stores, and of the property `V` of the versions
that it lets in, so that it goes through stores to a tree. -/
structure Kept (now : Instant) (Q : Shelf → Leaf → Prop) (V : Shelf → CacheKey → Shared → Prop) :
    Prop where
  grows : ∀ {shelf larger : Shelf} {l : Leaf}, shelf.Grows larger → Q shelf l → Q larger l
  version_grows : ∀ {shelf larger : Shelf} {key : CacheKey} {s : Shared}, shelf.Grows larger →
    V shelf key s → V larger key s
  version_copy : ∀ {shelf : Shelf} {key : CacheKey} {s : Shared}, V shelf key s →
    V (shelf.copy s).2 key (shelf.copy s).1
  upkeep : ∀ {shelf : Shelf} {l kept : Leaf}, Leaf.Upkeep shelf now l kept → Q shelf l →
    Q shelf kept
  store : ∀ {shelf : Shelf} {l : Leaf} {key : CacheKey} {s : Shared}, Q shelf l → V shelf key s →
    Q shelf (l.store now key s)

/-- The property goes through loads too, when all that is found may be let in. -/
structure Maintained (now : Instant) (Q : Shelf → Leaf → Prop)
    (V : Shelf → CacheKey → Shared → Prop) : Prop extends Kept now Q V where
  found : ∀ {shelf : Shelf} {l : Leaf} {key : CacheKey} {s : Shared}, Q shelf l →
    (l.load now key).1 = some s → V shelf key s

namespace Kept

variable {Q : Shelf → Leaf → Prop} {V : Shelf → CacheKey → Shared → Prop}

theorem all_grows (m : Kept now Q V) {shelf larger : Shelf} (g : shelf.Grows larger)
    {b : Backend} (h : b.All (Q shelf)) : b.All (Q larger) :=
  h.imp fun _ => m.grows g

theorem allOf_grows (m : Kept now Q V) {shelf larger : Shelf} (g : shelf.Grows larger)
    {tiers : List Backend} (h : AllOf (Q shelf) tiers) : AllOf (Q larger) tiers :=
  fun l hl => m.grows g (h l hl)

mutual

theorem all_store (m : Kept now Q V) (s : Shared) (shelf : Shelf) :
    ∀ b : Backend, b.All (Q shelf) → V shelf key s →
      (b.store now key s shelf).2.All (Q (b.store now key s shelf).1)
  | leaf _, h, v => all_leaf.2 (m.store (all_leaf.1 h) v)
  | tiered [], _, _ => allOf_nil
  | tiered (first :: rest), h, v => by
    obtain ⟨hf, hr⟩ := allOf_cons.1 (all_tiered.1 h)
    have copies := grows_storeCopies now key s shelf rest
    have stored := all_store m s _ first (m.all_grows copies hf) (m.version_grows copies v)
    have others := all_storeCopies m s shelf rest hr v
    exact all_tiered.2 (allOf_cons.2 ⟨stored, m.allOf_grows (grows_store now key s _ first) others⟩)

theorem all_storeCopies (m : Kept now Q V) (s : Shared) (shelf : Shelf) :
    ∀ tiers : List Backend, AllOf (Q shelf) tiers → V shelf key s →
      AllOf (Q (storeCopies now key s shelf tiers).1) (storeCopies now key s shelf tiers).2
  | [], _, _ => allOf_nil
  | tier :: rest, h, v => by
    obtain ⟨hf, hr⟩ := allOf_cons.1 h
    have copied := shelf.grows_copy s
    have larger := copied.trans (grows_store now key (shelf.copy s).1 _ tier)
    have stored := all_store m (shelf.copy s).1 _ tier (m.all_grows copied hf) (m.version_copy v)
    have others := all_storeCopies m s _ rest (m.allOf_grows larger hr) (m.version_grows larger v)
    exact allOf_cons.2 ⟨m.all_grows (grows_storeCopies now key s _ rest) stored, others⟩

end

/- What is found may be let in because of something that is known of it. -/
variable {T : Shared → Prop}

mutual

theorem all_load (m : Kept now Q V)
    (found : ∀ {shelf : Shelf} {l : Leaf} {s : Shared}, Q shelf l → (l.load now key).1 = some s →
      T s → V shelf key s) (shelf : Shelf) :
    ∀ b : Backend, b.All (Q shelf) → (∀ s, (b.load now key shelf).1 = some s → T s) →
      (b.load now key shelf).2.2.All (Q (b.load now key shelf).2.1) ∧
        ∀ s, (b.load now key shelf).1 = some s → V (b.load now key shelf).2.1 key s
  | leaf l, h, known =>
    ⟨all_leaf.2 (m.upkeep (.load key l) (all_leaf.1 h)),
      fun s hs => found (all_leaf.1 h) hs (known s hs)⟩
  | tiered tiers, h, known => all_loadTiers m found shelf tiers (all_tiered.1 h) known

theorem all_loadTiers (m : Kept now Q V)
    (found : ∀ {shelf : Shelf} {l : Leaf} {s : Shared}, Q shelf l → (l.load now key).1 = some s →
      T s → V shelf key s) (shelf : Shelf) :
    ∀ tiers : List Backend, AllOf (Q shelf) tiers →
      (∀ s, (loadTiers now key shelf tiers).1 = some s → T s) →
      AllOf (Q (loadTiers now key shelf tiers).2.1) (loadTiers now key shelf tiers).2.2 ∧
        ∀ s, (loadTiers now key shelf tiers).1 = some s →
          V (loadTiers now key shelf tiers).2.1 key s
  | [], _, _ => ⟨allOf_nil, fun _ hs => nomatch hs⟩
  | tier :: rest, h, known => by
    obtain ⟨hf, hr⟩ := allOf_cons.1 h
    have first := all_load m found shelf tier hf
    have grown := grows_load now key shelf tier
    rw [loadTiers] at known ⊢
    generalize tier.load now key shelf = result at *
    obtain ⟨hit, shelf', tier'⟩ := result
    cases hit with
    | some s =>
      have kept := first known
      exact ⟨allOf_cons.2 ⟨kept.1, m.allOf_grows grown hr⟩, kept.2⟩
    | none =>
      have kept := first fun _ hs => nomatch hs
      have others := all_loadTiers m found shelf' rest (m.allOf_grows grown hr)
      have grown' := grows_loadTiers now key shelf' rest
      simp only at known ⊢
      generalize loadTiers now key shelf' rest = result at *
      obtain ⟨hit, shelf'', rest'⟩ := result
      have tier'_kept := m.all_grows grown' kept.1
      cases hit with
      | none =>
        exact ⟨allOf_cons.2 ⟨tier'_kept, (others fun _ hs => nomatch hs).1⟩, fun _ hs => nomatch hs⟩
      | some s =>
        -- The tier did not have the key, and gets a copy of what was found behind it.
        have behind := others known
        have v := behind.2 s rfl
        have copied := shelf''.grows_copy s
        have larger := copied.trans (grows_store now key (shelf''.copy s).1 _ tier')
        have stored := all_store m _ _ tier' (m.all_grows copied tier'_kept) (m.version_copy v)
        refine ⟨allOf_cons.2 ⟨stored, m.allOf_grows larger behind.1⟩, fun t ht => ?_⟩
        obtain rfl := Option.some.inj ht
        exact m.version_grows larger v

end

end Kept

namespace Maintained

variable {Q : Shelf → Leaf → Prop} {V : Shelf → CacheKey → Shared → Prop}

theorem all_load (m : Maintained now Q V) (shelf : Shelf) (b : Backend) (h : b.All (Q shelf)) :
    (b.load now key shelf).2.2.All (Q (b.load now key shelf).2.1) ∧
      ∀ s, (b.load now key shelf).1 = some s → V (b.load now key shelf).2.1 key s :=
  m.toKept.all_load (T := fun _ => True) (fun hl hs _ => m.found hl hs) shelf b h
    fun _ _ => trivial

theorem all_loadTiers (m : Maintained now Q V) (shelf : Shelf) (tiers : List Backend)
    (h : AllOf (Q shelf) tiers) :
    AllOf (Q (loadTiers now key shelf tiers).2.1) (loadTiers now key shelf tiers).2.2 ∧
      ∀ s, (loadTiers now key shelf tiers).1 = some s →
        V (loadTiers now key shelf tiers).2.1 key s :=
  m.toKept.all_loadTiers (T := fun _ => True) (fun hl hs _ => m.found hl hs) shelf tiers h
    fun _ _ => trivial

end Maintained

/-- Copies of the versions that are let in have a property of versions, and may be let in too. -/
structure Copied (V : Shelf → CacheKey → Shared → Prop) (T : Shared → Prop) : Prop where
  grows : ∀ {shelf larger : Shelf} {key : CacheKey} {s : Shared}, shelf.Grows larger →
    V shelf key s → V larger key s
  copy : ∀ {shelf : Shelf} {key : CacheKey} {s : Shared}, V shelf key s → T s →
    V (shelf.copy s).2 key (shelf.copy s).1 ∧ T (shelf.copy s).1

/-- The property is one of all versions that are held, at any date. -/
theorem Copied.kept {V : Shelf → CacheKey → Shared → Prop} {T : Shared → Prop} (c : Copied V T)
    (now : Instant) :
    Kept now (fun shelf l => ∀ k t {date}, l.Holds date k t → V shelf k t)
      (fun shelf k t => V shelf k t ∧ T t) where
  grows g h k t _ ht := c.grows g (h k t ht)
  version_grows g v := ⟨c.grows g v.1, v.2⟩
  version_copy v := c.copy v.1 v.2
  upkeep keep h k t _ ht := h k t (ht.of_upkeep keep)
  store h v k t _ ht := by
    rcases ht.of_store with ht | ⟨rfl, rfl⟩
    · exact h k t ht
    · exact v.1

/-- **A property of versions that copies have too is one of all versions that are held.** -/
theorem maintained_holds (now : Instant) {V : Shelf → CacheKey → Shared → Prop}
    (grows : ∀ {shelf larger : Shelf} {key : CacheKey} {s : Shared}, shelf.Grows larger →
      V shelf key s → V larger key s)
    (copy : ∀ {shelf : Shelf} {key : CacheKey} {s : Shared}, V shelf key s →
      V (shelf.copy s).2 key (shelf.copy s).1) :
    Maintained now (fun shelf l => ∀ k t, l.Holds now k t → V shelf k t) V where
  grows g h k t ht := grows g (h k t ht)
  version_grows := grows
  version_copy := copy
  upkeep keep h k t ht := h k t (ht.of_upkeep keep)
  store h v k t ht := by
    rcases ht.of_store with ht | ⟨rfl, rfl⟩
    · exact h k t ht
    · exact v
  found h hs := h _ _ (.inl hs)

end Backend
end VariantCache
