import Mathlib.Algebra.BigOperators.Group.Finset.Piecewise
import Mathlib.Algebra.Order.BigOperators.Group.Finset

/-!
# Totals over a family of holders

A quantity held by each member of a finite family, and its total, when one member is
replaced: the accounting behind a pool shared by several holders.
-/

namespace Ledger

variable {ι α : Type} [Fintype ι] [DecidableEq ι]

theorem sum_update_add (g : α → ℕ) (f : ι → α) (i : ι) (b : α) :
    ∑ j, g (Function.update f i b j) + g (f i) = ∑ j, g (f j) + g b := by
  have e : ∀ j, g (Function.update f i b j) = Function.update (fun j => g (f j)) i (g b) j := by
    intro j
    by_cases hj : j = i
    · subst hj
      simp
    · simp [hj]
  simp only [e]
  rw [Finset.sum_update_of_mem (Finset.mem_univ i), ← Finset.add_sum_erase _ _ (Finset.mem_univ i),
    Finset.sdiff_singleton_eq_erase]
  omega

theorem sum_update_of_add {g : α → ℕ} {f : ι → α} {i : ι} {b : α} {x : ℕ}
    (h : g b = g (f i) + x) : ∑ j, g (Function.update f i b j) = ∑ j, g (f j) + x := by
  have := sum_update_add g f i b
  omega

theorem sum_add_le_sum {f g : ι → ℕ} {i : ι} {x : ℕ} (hle : ∀ j, f j ≤ g j)
    (hi : f i + x ≤ g i) : ∑ j, f j + x ≤ ∑ j, g j := by
  rw [← Finset.add_sum_erase _ f (Finset.mem_univ i), ← Finset.add_sum_erase _ g (Finset.mem_univ i)]
  have := Finset.sum_le_sum fun j (_ : j ∈ Finset.univ.erase i) => hle j
  omega

end Ledger
