import Mathlib

/-!
# Sorting stably by a rank

A stable sort by a rank is told by two things: its result is sorted, and the elements of any one
rank are in it as they were (`ofRank_mergeSort`); there is no other such list (`eq_of_ofRank`). So
sorting two lists one after the other is merging the sorted ones (`mergeSort_append`), leaving
elements out commutes with sorting (`filter_mergeSort`), and elements of equal rank keep whatever
order they were in (`pairwise_mergeSort`). A search does not see what is merged in after something
that reads the same (`findSome?_merge`).
-/

namespace VariantCache.Preference

/-! ### Sorting by a rank -/

section Stable

variable {α : Type} {rank : α → Nat} {R : α → α → Prop}

/-- The greater rank comes first. -/
def descending (rank : α → Nat) (a b : α) : Bool := decide (rank b ≤ rank a)

theorem descending_trans (a b c : α) (ab : descending rank a b = true) (bc : descending rank b c = true) :
    descending rank a c = true :=
  decide_eq_true (Nat.le_trans (of_decide_eq_true bc) (of_decide_eq_true ab))

theorem descending_total (a b : α) : (descending rank a b || descending rank b a) = true := by
  simp only [descending, Bool.or_eq_true, decide_eq_true_eq]
  exact Nat.le_total _ _

/-- The list is sorted by rank. -/
def Sorted (rank : α → Nat) (list : List α) : Prop := list.Pairwise fun a b => descending rank a b = true

theorem sorted_mergeSort (rank : α → Nat) (list : List α) : Sorted rank (list.mergeSort (descending rank)) :=
  List.pairwise_mergeSort descending_trans descending_total list

/-- The elements of a rank. -/
def ofRank (rank : α → Nat) (n : Nat) (list : List α) : List α := list.filter fun a => rank a == n

theorem ofRank_cons (n : Nat) (a : α) (list : List α) :
    ofRank rank n (a :: list) = if rank a = n then a :: ofRank rank n list else ofRank rank n list := by
  simp only [ofRank, List.filter_cons, beq_iff_eq]

/-- A sorted list has nothing above its first element. -/
theorem ofRank_eq_nil {n : Nat} {a : α} {list : List α} (h : Sorted rank (a :: list)) (lt : rank a < n) :
    ofRank rank n (a :: list) = [] := by
  refine List.filter_eq_nil_iff.2 fun b hb => ?_
  have le : rank b ≤ rank a := by
    rcases List.mem_cons.1 hb with rfl | hb
    · exact Nat.le_refl _
    · exact of_decide_eq_true (List.rel_of_pairwise_cons h hb)
  rw [beq_iff_eq]
  omega

/-- Sorting keeps the elements of a rank in their order. -/
theorem ofRank_mergeSort (n : Nat) (list : List α) :
    ofRank rank n (list.mergeSort (descending rank)) = ofRank rank n list := by
  have same : Sorted rank (ofRank rank n list) := by
    refine List.pairwise_of_forall_mem_list fun a ha b hb => ?_
    have ha := (List.mem_filter.1 ha).2
    have hb := (List.mem_filter.1 hb).2
    rw [beq_iff_eq] at ha hb
    exact decide_eq_true (hb.trans ha.symm).le
  have kept := (List.sublist_mergeSort descending_trans descending_total same List.filter_sublist).filter
    fun a => rank a == n
  rw [ofRank, List.filter_filter] at kept
  simp only [Bool.and_self] at kept
  exact (kept.eq_of_length ((List.mergeSort_perm _ _).filter _).length_eq.symm).symm

/-- Merging puts the elements of a rank from the first list before those from the second. -/
theorem ofRank_merge (n : Nat) {xs ys : List α} (hx : Sorted rank xs) (hy : Sorted rank ys) :
    ofRank rank n (xs.merge ys (descending rank)) = ofRank rank n xs ++ ofRank rank n ys := by
  induction xs generalizing ys with
  | nil => rw [List.nil_merge]; rfl
  | cons x xs ihx =>
    induction ys with
    | nil => rw [List.merge_right]; exact (List.append_nil _).symm
    | cons y ys ihy =>
      rw [List.cons_merge_cons]
      split
      · rw [ofRank_cons, ofRank_cons, ihx hx.tail hy]
        split <;> rfl
      · next lighter =>
        have lt : rank x < rank y := by
          simpa only [descending, decide_eq_true_eq, Nat.not_le] using lighter
        rw [ofRank_cons, ofRank_cons n y, ihy hy.tail]
        split
        · next here => rw [ofRank_eq_nil hx (here ▸ lt), List.nil_append, List.nil_append]
        · rfl

/-- A search through a sorted list does not change when elements are merged into it off which nothing
is read, or what is read off an element of the list that ranks no lower. -/
theorem findSome?_merge {β : Type} {f : α → Option β} {xs ys : List α} (hx : Sorted rank xs)
    (absorbed : ∀ y ∈ ys, f y = none ∨ ∃ x ∈ xs, rank y ≤ rank x ∧ f y = f x) :
    (xs.merge ys (descending rank)).findSome? f = xs.findSome? f := by
  induction xs generalizing ys with
  | nil =>
    rw [List.nil_merge, List.findSome?_nil, List.findSome?_eq_none_iff]
    intro y hy
    rcases absorbed y hy with nothing | ⟨x, hx, -⟩
    · exact nothing
    · exact absurd hx List.not_mem_nil
  | cons x xs ihx =>
    induction ys with
    | nil => rw [List.merge_right]
    | cons y ys ihy =>
      rw [List.cons_merge_cons]
      split
      · cases found : f x with
        | some b => simp only [List.findSome?_cons, found]
        | none =>
          simp only [List.findSome?_cons, found]
          refine ihx hx.tail fun z hz => ?_
          -- What is read off `x` is nothing, so the rest of the list absorbs what `x` does.
          rcases absorbed z hz with nothing | ⟨x', hx', le, same⟩
          · exact .inl nothing
          · rcases List.mem_cons.1 hx' with rfl | hx'
            · exact .inl (same.trans found)
            · exact .inr ⟨x', hx', le, same⟩
      · next lighter =>
        have lt : rank x < rank y := by
          simpa only [descending, decide_eq_true_eq, Nat.not_le] using lighter
        have nothing : f y = none := by
          rcases absorbed y List.mem_cons_self with nothing | ⟨x', hx', le, -⟩
          · exact nothing
          · have below : rank x' ≤ rank x := by
              rcases List.mem_cons.1 hx' with rfl | hx'
              · exact Nat.le_refl _
              · exact of_decide_eq_true (List.rel_of_pairwise_cons hx hx')
            omega
        rw [List.findSome?_cons, nothing]
        exact ihy fun z hz => absorbed z (List.mem_cons_of_mem y hz)

/-- A sorted list is told by the elements of each rank. -/
theorem eq_of_ofRank {xs ys : List α} (hx : Sorted rank xs) (hy : Sorted rank ys)
    (same : ∀ n, ofRank rank n xs = ofRank rank n ys) : xs = ys := by
  have head_ne {a : α} {list : List α} : ofRank rank (rank a) (a :: list) ≠ [] := by
    rw [ofRank_cons, if_pos rfl]
    exact List.cons_ne_nil _ _
  induction xs generalizing ys with
  | nil =>
    cases ys with
    | nil => rfl
    | cons y ys => exact absurd (same (rank y)).symm head_ne
  | cons x xs ih =>
    cases ys with
    | nil => exact absurd (same (rank x)) head_ne
    | cons y ys =>
      have equal : rank x = rank y := by
        rcases Nat.lt_trichotomy (rank x) (rank y) with lt | eq | gt
        · exact absurd ((same (rank y)).symm.trans (ofRank_eq_nil hx lt)) head_ne
        · exact eq
        · exact absurd ((same (rank x)).trans (ofRank_eq_nil hy gt)) head_ne
      have heads := same (rank y)
      rw [ofRank_cons, ofRank_cons, if_pos equal, if_pos rfl] at heads
      obtain ⟨rfl, -⟩ := List.cons.inj heads
      congr 1
      refine ih hx.tail hy.tail fun n => ?_
      have tails := same n
      rw [ofRank_cons, ofRank_cons] at tails
      split at tails
      · exact (List.cons.inj tails).2
      · exact tails

theorem mergeSort_append (xs ys : List α) :
    (xs ++ ys).mergeSort (descending rank) =
      (xs.mergeSort (descending rank)).merge (ys.mergeSort (descending rank)) (descending rank) := by
  have hx := sorted_mergeSort rank xs
  have hy := sorted_mergeSort rank ys
  refine eq_of_ofRank (sorted_mergeSort rank _)
    (List.pairwise_merge descending_trans descending_total _ _ hx hy) fun n => ?_
  rw [ofRank_merge n hx hy, ofRank_mergeSort, ofRank_mergeSort, ofRank_mergeSort, ofRank,
    List.filter_append, ofRank, ofRank]

theorem filter_mergeSort (p : α → Bool) (xs : List α) :
    (xs.mergeSort (descending rank)).filter p = (xs.filter p).mergeSort (descending rank) := by
  refine eq_of_ofRank ((sorted_mergeSort rank xs).filter p) (sorted_mergeSort rank _) fun n => ?_
  have comm (list : List α) : ofRank rank n (list.filter p) = (ofRank rank n list).filter p :=
    List.filter_comm _ _ _
  rw [ofRank_mergeSort, comm, comm, ofRank_mergeSort]

/-- Elements of equal rank keep whatever order they were in. -/
theorem pairwise_mergeSort {xs : List α} (h : xs.Pairwise R) :
    (xs.mergeSort (descending rank)).Pairwise fun a b => rank b < rank a ∨ rank a = rank b ∧ R a b := by
  rw [List.pairwise_iff_forall_sublist] at h ⊢
  intro a b sub
  have le : rank b ≤ rank a :=
    of_decide_eq_true (List.pairwise_iff_forall_sublist.1 (sorted_mergeSort rank xs) sub)
  rcases Nat.lt_or_eq_of_le le with lt | eq
  · exact .inl lt
  · refine .inr ⟨eq.symm, h ?_⟩
    have sub := sub.filter fun c => rank c == rank a
    rw [← ofRank, ← ofRank, ofRank_mergeSort] at sub
    simp only [ofRank, List.filter_cons, List.filter_nil, beq_self_eq_true, eq, ↓reduceIte] at sub
    exact sub.trans List.filter_sublist

end Stable

end VariantCache.Preference
