/-!
# Totals
-/

namespace VariantCache

/-- The numbers of a list added up. -/
def total (numbers : List Nat) : Nat := numbers.foldr (· + ·) 0

@[simp] theorem total_nil : total [] = 0 := rfl

@[simp] theorem total_cons (n : Nat) (rest : List Nat) : total (n :: rest) = n + total rest := rfl

theorem le_total_of_mem {n : Nat} {numbers : List Nat} (h : n ∈ numbers) : n ≤ total numbers := by
  induction numbers with
  | nil => cases h
  | cons first rest ih =>
    rw [total_cons]
    rcases List.mem_cons.1 h with rfl | h
    · exact Nat.le_add_right _ _
    · exact Nat.le_trans (ih h) (Nat.le_add_left _ _)

end VariantCache
