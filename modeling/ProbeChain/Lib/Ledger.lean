/-
# Totals over a finite set of cells

A map from finitely many cells to contents, a measure of one content, and the total over all cells.
Programs change a map one cell at a time, so one lemma carries every statement about how a total
moves (`total_update`); `total_sub_total` compares two maps that agree outside a given set of cells.
-/
import Mathlib.Data.Fintype.BigOperators
import Mathlib.Algebra.Order.BigOperators.Group.Finset
import Mathlib.Tactic.Abel

namespace ProbeChain.Ledger

open Function

variable {ι α M : Type*} [Fintype ι] [AddCommGroup M]

/-- The total of the measure `f` over all cells. -/
def total (f : α → M) (w : ι → α) : M := ∑ i, f (w i)

/-- Writing one cell moves the total by what the cell gains. -/
theorem total_update [DecidableEq ι] (f : α → M) (w : ι → α) (i : ι) (x : α) :
    total f (update w i x) = total f w + (f x - f (w i)) := by
  have hsplit (y : α) : total f (update w i y) =
      f y + ∑ j ∈ Finset.univ \ {i}, f (w j) := by
    have hcomp : (fun j => f (update w i y j)) =
        update (fun j => f (w j)) i (f y) := comp_update f w i y
    rw [total, hcomp, Finset.sum_update_of_mem (Finset.mem_univ i)]
  have hself := hsplit (w i)
  rw [update_eq_self] at hself
  rw [hsplit x, hself]
  abel

/-- Two maps that agree outside `S` differ in total by what the cells of `S` gain. -/
theorem total_sub_total (f : α → M) (w w' : ι → α) (S : Finset ι) (h : ∀ i, i ∉ S → w' i = w i) :
    total f w' - total f w = ∑ i ∈ S, (f (w' i) - f (w i)) := by
  rw [total, total, ← Finset.sum_sub_distrib]
  refine (Finset.sum_subset (Finset.subset_univ S) fun i _ hi => ?_).symm
  rw [h i hi, sub_self]

/-- Cell by cell no more is in total no more. -/
theorem total_le_total [PartialOrder M] [IsOrderedAddMonoid M] {f : α → M} {w w' : ι → α}
    (h : ∀ i, f (w' i) ≤ f (w i)) : total f w' ≤ total f w :=
  Finset.sum_le_sum fun i _ => h i

end ProbeChain.Ledger
