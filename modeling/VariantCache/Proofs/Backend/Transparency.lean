import VariantCache.Proofs.Backend.Alike

/-!
# Loads through tiers go unnoticed

A load through tiers of map stores writes: it leaves a copy of what it finds in every tier
above. Nobody can tell. A site where loads were made is alike to the site where they were
not made (`Alike.loads_left`), so they change none of the answers that are given
afterwards, whatever the tiers had of the key and whatever their indexes of groups say.

The copies stand in places that were empty (`IsPlaced.getElem?_view_load`), and they are of
what the load itself answers (`IsPlaced.of_getElem?_view_load`), so no load brings back what
is gone (`IsPlaced.of_mem_view_loads`).
-/

namespace VariantCache.Site

open Store Store.Edition

variable {base : Shelf} {site a b : Site} {key k : CacheKey} {number : Nat} {e : Edition}

/-- The site after loads of some keys from the whole tree. -/
def loads (site : Site) (keys : List CacheKey) : Site :=
  site.run (keys.map fun key => .perform [] (.load key))

/-- The answers to some actions, each of which comes after loads of some keys. -/
def answersAmidLoads (site : Site) : List (List CacheKey × Action) → List (Option Representation)
  | [] => []
  | (keys, action) :: rest =>
    (site.loads keys).answer action :: ((site.loads keys).step action).answersAmidLoads rest

/-! ### Answers -/

/-- Loads on one of the sites go unnoticed. -/
theorem Alike.loads_left (h : Alike base a b) (keys : List CacheKey) :
    Alike base (a.loads keys) b := by
  unfold loads run
  induction keys generalizing a with
  | nil => exact h
  | cons key keys ih => exact ih (h.load_left key)

/-- **Loads in between change no answer.** -/
theorem Alike.answersAmidLoads (h : Alike base a b) {steps : List (List CacheKey × Action)}
    (asked : ∀ step ∈ steps, step.2.AtRoot base) :
    a.answersAmidLoads steps = b.answers (steps.map (·.2)) := by
  induction steps generalizing a b with
  | nil => rfl
  | cons first rest ih =>
    obtain ⟨keys, action⟩ := first
    have alike := h.loads_left keys
    have here : action.AtRoot base := asked _ List.mem_cons_self
    have later := ih (alike.step here) fun step hs => asked step (List.mem_cons_of_mem _ hs)
    rw [Site.answersAmidLoads, List.map_cons, answers, alike.answer here, later]

/-! ### Promotion -/

/-- A load never replaces what a store has. -/
theorem IsPlaced.getElem?_view_load (h : site.IsPlaced base)
    (there : (site.view k)[number]? = some (some e)) :
    ((site.step (.perform [] (.load key))).view k)[number]? = some (some e) := by
  rw [(h.load key).2, Backend.loaded]
  split
  · rw [Stack.promote]
    split
    · exact there
    · exact Stack.getElem?_fill_of_some there
  · exact there

/-- What a load brings into a store is what it answers. -/
theorem IsPlaced.of_getElem?_view_load (h : site.IsPlaced base)
    (after : ((site.step (.perform [] (.load key))).view k)[number]? = some (some e)) :
    (site.view k)[number]? = some (some e) ∨
      k = key ∧ site.answer (.perform [] (.load key)) = some e.representation := by
  rw [(h.load key).2, Backend.loaded] at after
  split at after
  · next same =>
    rw [answer_load h, ← same]
    cases top : (site.view k).top? with
    | none =>
      rw [Stack.promote_of_none top] at after
      exact .inl after
    | some r =>
      rw [Stack.promote_of_some top] at after
      exact (Stack.of_getElem?_fill after).imp_right fun copied => ⟨rfl, by rw [copied]; rfl⟩
  · exact .inl after

/-- No load brings in a version that no store has. -/
theorem IsPlaced.of_mem_view_loads (h : site.IsPlaced base) {keys : List CacheKey}
    (after : some e ∈ (site.loads keys).view k) :
    ∃ before, some before ∈ site.view k ∧ before.representation = e.representation := by
  unfold loads run at after
  induction keys generalizing site with
  | nil => exact ⟨e, after, rfl⟩
  | cons key keys ih =>
    obtain ⟨mid, mem, same⟩ := ih (h.load key).1 after
    obtain ⟨number, at_⟩ := List.mem_iff_getElem?.1 mem
    rcases h.of_getElem?_view_load at_ with there | ⟨rfl, found⟩
    · exact ⟨mid, List.mem_iff_getElem?.2 ⟨number, there⟩, same⟩
    · rw [answer_load h] at found
      obtain ⟨before, mem, copied⟩ := Stack.exists_mem_of_top? found
      exact ⟨before, mem, copied.trans same⟩

/-- **Loads through tiers are transparent.** Take any tree of map stores, in any state whose bodies
are on the shelf, and any stores, loads, deletions, chores and times. Loads of any keys may come
before each of them, and all answers are what they are without these loads. A load replaces no
fresh version in any store, what it brings into a store is what it answers itself, and after
any loads the stores have only versions that some store had before. -/
theorem loads_transparent {site : Site}
    (placed : site.backend.All (Leaf.IsPlacedMap site.now site.shelf)) :
    (∀ steps : List (List CacheKey × Action), (∀ step ∈ steps, step.2.AtRoot site.shelf) →
      site.answersAmidLoads steps = site.answers (steps.map (·.2))) ∧
    (∀ (key k : CacheKey) (number : Nat) (e : Edition),
      ((site.view k)[number]? = some (some e) →
        ((site.step (.perform [] (.load key))).view k)[number]? = some (some e)) ∧
      (((site.step (.perform [] (.load key))).view k)[number]? = some (some e) →
        (site.view k)[number]? = some (some e) ∨
          k = key ∧ site.answer (.perform [] (.load key)) = some e.representation)) ∧
    ∀ (keys : List CacheKey) (k : CacheKey) (e : Edition), some e ∈ (site.loads keys).view k →
      ∃ before, some before ∈ site.view k ∧ before.representation = e.representation := by
  have here : site.IsPlaced site.shelf := ⟨placed, site.shelf.grows_refl⟩
  exact ⟨fun steps asked => here.alike.answersAmidLoads asked,
    fun key k number e => ⟨here.getElem?_view_load, here.of_getElem?_view_load⟩,
    fun keys k e => here.of_mem_view_loads⟩

/-- A page whose draft stands above the page that was published, under an empty tier. -/
def draftAbovePage : Site where
  backend := .tiered [.leaf (.map (.empty (.ofSeconds 10))),
    .tiered [.leaf (.map (.store (.empty (.ofSeconds 10)) (.ofSeconds 0) ⟨"page", "", "", ""⟩
        ⟨⟨["draft"], [], .ofSeconds 60⟩, 0⟩)),
      .leaf (.map (.store (.empty (.ofSeconds 10)) (.ofSeconds 0) ⟨"page", "", "", ""⟩
        ⟨⟨["news"], [], .ofSeconds 90⟩, 1⟩))]]
  shelf := ⟨#[.empty, .empty], []⟩
  now := .ofSeconds 0

/-- The page is asked for, its draft is deleted, and the page is asked for twice again, at last when
it has expired. Loads come in between. -/
def readings : List (List CacheKey × Action) :=
  [([], .perform [] (.load ⟨"page", "", "", ""⟩)),
    ([⟨"page", "", "", ""⟩], .perform [] (.deleteGroup "draft")),
    ([⟨"other", "", "", ""⟩], .perform [] (.load ⟨"page", "", "", ""⟩)),
    ([⟨"page", "", "", ""⟩], .tick (.ofSeconds 91)),
    ([⟨"page", "", "", ""⟩], .perform [] (.load ⟨"page", "", "", ""⟩))]

/-- First there is the draft, then the page, then nothing, and loads make no difference. The page
stays in the last store while the draft is copied above it. -/
theorem loads_draftAbovePage :
    draftAbovePage.answersAmidLoads readings = draftAbovePage.answers (readings.map (·.2)) ∧
    (draftAbovePage.answers (readings.map (·.2))).map (·.map (·.details.groups)) =
      [some ["draft"], none, some ["news"], none, none] ∧
    ((draftAbovePage.step (.perform [] (.load ⟨"page", "", "", ""⟩))).view
        ⟨"page", "", "", ""⟩)[2]? =
      some (some ⟨⟨⟨["news"], [], .ofSeconds 90⟩, .empty⟩, ["news"]⟩) := by
  have placed : draftAbovePage.backend.All
      (Leaf.IsPlacedMap draftAbovePage.now draftAbovePage.shelf) := by
    simp only [draftAbovePage, Backend.all_tiered, Backend.allOf_cons, Backend.all_leaf]
    exact ⟨Leaf.isPlacedMap_map (by decide +kernel), ⟨Leaf.isPlacedMap_map (by decide +kernel),
      Leaf.isPlacedMap_map (by decide +kernel), Backend.allOf_nil⟩, Backend.allOf_nil⟩
  obtain ⟨transparent, promotes, -⟩ := loads_transparent placed
  refine ⟨transparent readings ?_, by decide +kernel, (promotes _ _ _ _).1 rfl⟩
  unfold readings
  simp only [List.forall_mem_cons]
  exact ⟨.load _, .deleteGroup _, .load _, .tick _, .load _, List.forall_mem_nil _⟩

end VariantCache.Site
