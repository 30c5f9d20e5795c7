import VariantCache.Proofs.Store.Edition

/-!
# Stacks of editions

Tiers of stores have a stack of editions of a key, the fastest first. Only the top one is
seen by a load, and the others come to light when those before them are gone. A load
fills the empty places above the top with copies of it (`promote`).

An edition that stands before another one of the same representation makes no difference
when whatever takes the second one away takes the first one away too. What is left of a
stack without such repetitions is its essence. It shows what a load finds (`Alike.top?`),
the copies that loads make are repetitions (`promote_alike`), and what takes editions away
acts on the essence (`Alike.filter`). So stacks with one essence cannot be told apart.
-/

namespace VariantCache.Store.Edition

/-! ### Repetitions -/

/-- The first edition goes whenever the second one goes, and shows the same. -/
structure Repeats (e next : Edition) : Prop where
  same : e.representation = next.representation
  listed : next.listed ⊆ e.listed

theorem Repeats.refl (e : Edition) : e.Repeats e := ⟨rfl, fun _ h => h⟩

theorem Repeats.trans {e f g : Edition} (h : e.Repeats f) (h' : f.Repeats g) : e.Repeats g :=
  ⟨h.same.trans h'.same, fun _ hn => h.listed (h'.listed hn)⟩

open Classical in
/-- Editions without those that repeat the one behind them. -/
noncomputable def thin : List Edition → List Edition
  | [] => []
  | e :: rest =>
    if ∃ next ∈ (thin rest).head?, e.Repeats next then thin rest else e :: thin rest

theorem thin_cons_of_repeats {e next : Edition} {rest : List Edition}
    (head : next ∈ (thin rest).head?) (h : e.Repeats next) : thin (e :: rest) = thin rest := by
  rw [thin, if_pos ⟨next, head, h⟩]

/-- The first edition is there, or one that it repeats. -/
theorem exists_head_thin (e : Edition) (rest : List Edition) :
    ∃ first ∈ (thin (e :: rest)).head?, e.Repeats first := by
  rw [thin]
  split
  · next h => exact h
  · exact ⟨e, rfl, .refl e⟩

theorem head?_thin (editions : List Edition) :
    (thin editions).head?.map (·.representation) = editions.head?.map (·.representation) := by
  cases editions with
  | nil => rfl
  | cons e rest =>
    obtain ⟨first, head, h⟩ := exists_head_thin e rest
    rw [Option.mem_def.1 head]
    exact congrArg some h.same.symm

theorem thin_replicate (e : Edition) (n : Nat) : thin (List.replicate (n + 1) e) = [e] := by
  induction n with
  | zero => simp [thin]
  | succ n ih =>
    have head : e ∈ (thin (List.replicate (n + 1) e)).head? := by rw [ih]; rfl
    rw [List.replicate_succ, thin_cons_of_repeats head (.refl e), ih]

/-- Taking editions away acts on the essence, if what is repeated stays as long as what repeats
it. -/
theorem thin_filter {keep : Edition → Bool}
    (stays : ∀ e next : Edition, e.Repeats next → keep e = true → keep next = true)
    (editions : List Edition) :
    thin (editions.filter keep) = thin ((thin editions).filter keep) := by
  induction editions with
  | nil => rfl
  | cons e rest ih =>
    by_cases repeated : ∃ next ∈ (thin rest).head?, e.Repeats next
    · obtain ⟨next, head, h⟩ := repeated
      rw [thin_cons_of_repeats head h, ← ih]
      by_cases kept : keep e = true
      · -- What `e` repeats is kept too, and is still the first one, or repeats the first one.
        obtain ⟨others, split⟩ := List.head?_eq_some_iff.1 head
        obtain ⟨first, head', h'⟩ := exists_head_thin next (others.filter keep)
        rw [List.filter_cons_of_pos kept]
        refine thin_cons_of_repeats ?_ (h.trans h')
        rw [ih, split, List.filter_cons_of_pos (stays e next h kept)]
        exact head'
      · rw [List.filter_cons_of_neg kept]
    · have essence : thin (e :: rest) = e :: thin rest := by rw [thin, if_neg repeated]
      rw [essence]
      by_cases kept : keep e = true
      · rw [List.filter_cons_of_pos kept, List.filter_cons_of_pos kept, thin, thin, ih]
      · rw [List.filter_cons_of_neg kept, List.filter_cons_of_neg kept, ih]

/-! ### Stacks -/

/-- What some stores, one after the other, have of a key. -/
abbrev Stack := List (Option Edition)

namespace Stack

/-- What a load finds: the representation of the first edition. -/
def top? (stack : Stack) : Option Representation := (stack.findSome? id).map (·.representation)

/-- The stack with an edition in the empty places above the first one. -/
def fill (e : Edition) : Stack → Stack
  | [] => []
  | none :: rest => some e :: fill e rest
  | some first :: rest => some first :: rest

/-- What a load makes of a stack: the empty places above the first edition have it too. -/
def promote (stack : Stack) : Stack :=
  match stack.top? with
  | none => stack
  | some r => stack.fill (.full r)

/-- What is left of a stack when repetitions are left out. -/
noncomputable def essence (stack : Stack) : List Edition := thin (stack.filterMap id)

variable {stack a b : Stack} {e f : Edition} {r : Representation}

theorem top?_append (a b : Stack) : top? (a ++ b) = (top? a).or (top? b) := by
  rw [top?, List.findSome?_append]
  cases h : List.findSome? id a with
  | none => simp [top?, h]
  | some e => simp [top?, h]

theorem exists_mem_of_top? (h : top? stack = some r) :
    ∃ e, some e ∈ stack ∧ e.representation = r := by
  obtain ⟨e, he, rfl⟩ := Option.map_eq_some_iff.1 h
  obtain ⟨place, hp, rfl⟩ := List.exists_of_findSome?_eq_some he
  exact ⟨e, hp, rfl⟩

theorem eq_none_of_top? (h : top? stack = none) : ∀ place ∈ stack, place = none := by
  rw [top?, Option.map_eq_none_iff, List.findSome?_eq_none_iff] at h
  exact h

/-- Above nothing at all every place is filled. -/
theorem fill_append_of_none (h : top? a = none) :
    fill e (a ++ b) = a.map (fun _ => some e) ++ fill e b := by
  have empty := eq_none_of_top? h
  clear h
  induction a with
  | nil => rfl
  | cons place a ih =>
    obtain rfl := empty place List.mem_cons_self
    rw [List.cons_append, fill, ih fun place hp => empty place (List.mem_cons_of_mem _ hp)]
    rfl

/-- What is below the first edition stays as it is. -/
theorem fill_append_of_some (h : top? a = some r) : fill e (a ++ b) = fill e a ++ b := by
  induction a with
  | nil => cases h
  | cons place a ih =>
    cases place with
    | some first => rfl
    | none =>
      have rest : top? a = some r := h
      rw [List.cons_append, fill, fill, ih rest, List.cons_append]

/-- No place that has an edition gets another one. -/
theorem getElem?_fill_of_some {number : Nat} (h : stack[number]? = some (some f)) :
    (fill e stack)[number]? = some (some f) := by
  induction stack generalizing number with
  | nil => exact h
  | cons place stack ih =>
    cases place with
    | some first => exact h
    | none =>
      cases number with
      | zero => simp at h
      | succ number => exact ih (by simpa using h)

/-- An edition that comes up was there, or is the one that is filled in. -/
theorem of_getElem?_fill {number : Nat} (h : (fill e stack)[number]? = some (some f)) :
    stack[number]? = some (some f) ∨ f = e := by
  induction stack generalizing number with
  | nil => exact .inl h
  | cons place stack ih =>
    cases place with
    | some first => exact .inl h
    | none =>
      cases number with
      | zero => exact .inr (by simpa [fill] using h.symm)
      | succ number => exact ih (by simpa [fill] using h)

theorem promote_of_none (h : top? stack = none) : promote stack = stack := by rw [promote, h]

theorem promote_of_some (h : top? stack = some r) : promote stack = fill (.full r) stack := by
  rw [promote, h]

theorem promote_singleton (place : Option Edition) : promote [place] = [place] := by
  cases place <;> rfl

theorem promote_append_of_some (h : top? a = some r) : promote (a ++ b) = promote a ++ b := by
  rw [promote_of_some (show top? (a ++ b) = some r by rw [top?_append, h]; rfl), promote_of_some h,
    fill_append_of_some h]

theorem promote_append_of_none (h : top? a = none) (h' : top? b = some r) :
    promote (a ++ b) = a.map (fun _ => some (.full r)) ++ promote b := by
  rw [promote_of_some (show top? (a ++ b) = some r by rw [top?_append, h, h']; rfl),
    promote_of_some h', fill_append_of_none h]

/-! ### The essence of a stack -/

theorem map_head?_filterMap (stack : Stack) :
    (stack.filterMap id).head?.map (·.representation) = stack.top? := by
  rw [top?, List.head?_filterMap]

/-- Filling in what repeats the first edition leaves the essence as it is. -/
theorem essence_fill (h : ∃ first ∈ (stack.filterMap id).head?, e.Repeats first) :
    essence (fill e stack) = essence stack := by
  induction stack with
  | nil =>
    obtain ⟨first, head, -⟩ := h
    cases head
  | cons place stack ih =>
    cases place with
    | some first => rfl
    | none =>
      have rest : essence (fill e stack) = essence stack := ih h
      obtain ⟨first, head, repeated⟩ := h
      obtain ⟨others, split⟩ := List.head?_eq_some_iff.1 head
      obtain ⟨lowest, head', repeated'⟩ := exists_head_thin first others
      have head'' : lowest ∈ (essence (fill e stack)).head? := by
        rw [rest, essence, show stack.filterMap id = first :: others from split]
        exact head'
      calc essence (fill e (none :: stack))
          = thin (e :: (fill e stack).filterMap id) := rfl
        _ = essence (fill e stack) :=
          thin_cons_of_repeats head'' (repeated.trans repeated')
        _ = essence (none :: stack) := rest

/-- The essence of a stack with the same edition, or none, in every place. -/
theorem essence_map_const {α : Type} (place : Option Edition) (stores : List α) :
    essence (stores.map fun _ => place) = if stores = [] then [] else place.toList := by
  cases stores with
  | nil => simp [essence, thin]
  | cons first stores =>
    rw [if_neg (List.cons_ne_nil _ _), List.map_const', List.length_cons]
    unfold essence
    cases place with
    | none => simp [thin]
    | some e => simpa using thin_replicate e stores.length

/-! ### Stacks that cannot be told apart -/

/-- Two stacks have the same essence, and both have places or both have none. -/
structure Alike (a b : Stack) : Prop where
  nil_iff : a = [] ↔ b = []
  essence : essence a = essence b

theorem Alike.refl (stack : Stack) : stack.Alike stack := ⟨Iff.rfl, rfl⟩

theorem Alike.symm (h : a.Alike b) : b.Alike a := ⟨h.nil_iff.symm, h.essence.symm⟩

theorem Alike.trans {c : Stack} (h : a.Alike b) (h' : b.Alike c) : a.Alike c :=
  ⟨h.nil_iff.trans h'.nil_iff, h.essence.trans h'.essence⟩

/-- A load finds the same on both. -/
theorem Alike.top? (h : a.Alike b) : a.top? = b.top? := by
  have heads := congrArg (fun editions => editions.head?.map (·.representation)) h.essence
  simp only [Stack.essence, head?_thin, map_head?_filterMap] at heads
  exact heads

/-- **The copies that a load makes cannot be told from nothing at all.** -/
theorem promote_alike
    (faithful : ∀ e, some e ∈ stack → e.listed ⊆ e.representation.details.groups) :
    (promote stack).Alike stack := by
  cases top : stack.top? with
  | none =>
    rw [promote_of_none top]
    exact .refl stack
  | some r =>
    rw [promote_of_some top]
    refine ⟨?_, ?_⟩
    · cases stack with
      | nil => exact Iff.rfl
      | cons place stack => cases place <;> simp [fill]
    · rw [← map_head?_filterMap, Option.map_eq_some_iff] at top
      obtain ⟨first, head, rfl⟩ := top
      have there : some first ∈ stack := by simpa using List.mem_of_mem_head? head
      exact essence_fill ⟨first, head, rfl, faithful first there⟩

/-- What takes editions away acts on the essence. -/
theorem Alike.filter {keep : Edition → Bool} (h : a.Alike b)
    (stays : ∀ e next : Edition, e.Repeats next → keep e = true → keep next = true) :
    Alike (a.map (·.filter keep)) (b.map (·.filter keep)) := by
  have filtered (stack : Stack) :
      (stack.map (·.filter keep)).filterMap id = (stack.filterMap id).filter keep := by
    rw [List.filterMap_map, List.filter_filterMap]
    rfl
  refine ⟨by simp only [List.map_eq_nil_iff, h.nil_iff], ?_⟩
  have same := h.essence
  unfold Stack.essence at same ⊢
  rw [filtered, filtered, thin_filter stays, same, ← thin_filter stays]

/-- The number of stores that all have the same makes no difference, unless there are none. -/
theorem alike_map_const {α β : Type} {few : List α} {many : List β} (some : few = [] ↔ many = [])
    (place : Option Edition) : Alike (few.map fun _ => place) (many.map fun _ => place) := by
  refine ⟨by simp only [List.map_eq_nil_iff, some], ?_⟩
  rw [essence_map_const, essence_map_const]
  simp only [some]

end Stack
end VariantCache.Store.Edition
