/-
# Choosing by weight

The entries of a list are laid out one after another, each as long as its weight.  `pick w as t` is
the entry that covers position `t`.  `count_pick` says that an entry covers as many positions as it
weighs.
-/
import Mathlib.Algebra.GroupWithZero.Nat
import Mathlib.Data.Nat.Count

namespace ProbeChain.Weighted

open List

variable {α : Type*} (w : α → Nat)

def total (as : List α) : Nat := (as.map w).sum

/-- The entry at position `t`; none beyond the total. -/
def pick : List α → Nat → Option α
  | [], _ => none
  | a :: as, t => if t < w a then some a else pick as (t - w a)

variable {w} {a b : α} {as : List α} {t : Nat}

theorem total_cons (w : α → Nat) (a : α) (as : List α) : total w (a :: as) = w a + total w as := by
  rw [total, map_cons, sum_cons, total]

theorem total_perm (w : α → Nat) {bs : List α} (h : as.Perm bs) : total w as = total w bs :=
  (h.map w).sum_nat

/-- Past the first entry the others are in their places. -/
theorem pick_cons_add (w : α → Nat) (b : α) (as : List α) (t : Nat) :
    pick w (b :: as) (w b + t) = pick w as t := by
  rw [pick, if_neg (by omega), Nat.add_sub_cancel_left]

theorem mem_of_pick (h : pick w as t = some a) : a ∈ as := by
  induction as generalizing t with
  | nil => cases h
  | cons b as ih =>
    rw [pick] at h
    split at h
    · cases h
      exact mem_cons_self
    · exact mem_cons_of_mem _ (ih h)

/-- Every position below the total is covered. -/
theorem exists_pick (h : t < total w as) : ∃ a ∈ as, pick w as t = some a := by
  induction as generalizing t with
  | nil => cases h
  | cons b as ih =>
    rw [pick]
    split
    · exact ⟨b, mem_cons_self, rfl⟩
    · rw [total_cons] at h
      obtain ⟨a, ha, hpick⟩ := ih (t := t - w b) (by omega)
      exact ⟨a, mem_cons_of_mem _ ha, hpick⟩

section
variable [DecidableEq α]

theorem count_pick_of_notMem (h : a ∉ as) (n : Nat) :
    Nat.count (fun t => pick w as t = some a) n = 0 :=
  Nat.count_iff_forall_not.mpr fun _ _ hpick => h (mem_of_pick hpick)

/-- **An entry covers as many positions as it weighs.** -/
theorem count_pick (hnodup : as.Nodup) (ha : a ∈ as) :
    Nat.count (fun t => pick w as t = some a) (total w as) = w a := by
  induction as with
  | nil => cases ha
  | cons b as ih =>
    obtain ⟨hb, hnodup⟩ := nodup_cons.mp hnodup
    rw [total_cons, Nat.count_add]
    simp only [pick_cons_add]
    rcases mem_cons.mp ha with rfl | hmem
    · -- the entry itself, and nothing after it
      rw [count_pick_of_notMem hb, Nat.count_iff_forall.mpr fun t ht => ?_, Nat.add_zero]
      rw [pick, if_pos ht]
    · rw [ih hnodup hmem, Nat.count_iff_forall_not.mpr fun t ht hpick => ?_, Nat.zero_add]
      rw [pick, if_pos ht] at hpick
      cases hpick
      exact hb hmem

end

end ProbeChain.Weighted
