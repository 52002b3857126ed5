/-
# Writing back what is marked

A memory is written to, and a store behind it is brought up to date from time to time: the keys that
are marked are copied.  As long as every key that is not marked is the same in both (`Synced`),
copying the marked keys is enough.  If only some of them are copied, the store is right exactly if
the others happened to be right (`Synced.flush_eq_iff`).
-/
import Mathlib.Data.Set.Basic

namespace ProbeChain.WriteBack

variable {κ β : Type*}

/-- Outside `M` the store has what the memory has. -/
def Synced (M : Set κ) (memory store : κ → β) : Prop := ∀ k, k ∉ M → store k = memory k

/-- The store after the keys of `F` have been copied. -/
def flush (F : Set κ) [DecidablePred (· ∈ F)] (memory store : κ → β) : κ → β :=
  fun k => if k ∈ F then memory k else store k

section
variable {M M' F : Set κ} {memory memory' store : κ → β}

/-- A write is harmless if it is marked. -/
theorem Synced.write (h : Synced M memory store) (hM : M ⊆ M')
    (hmemory : ∀ k, k ∉ M' → memory' k = memory k) : Synced M' memory' store := by
  intro k hk
  rw [hmemory k hk]
  exact h k fun hkM => hk (hM hkM)

variable [DecidablePred (· ∈ F)]

/-- **The store is right** exactly if it was right at the marked keys that were not copied. -/
theorem Synced.flush_eq_iff (h : Synced M memory store) :
    flush F memory store = memory ↔ ∀ k, k ∈ M → k ∉ F → store k = memory k := by
  constructor
  · intro heq k _ hF
    have hk := congrFun heq k
    rwa [flush, if_neg hF] at hk
  · intro hother
    funext k
    unfold flush
    split
    · rfl
    next hF =>
      by_cases hM : k ∈ M
      · exact hother k hM hF
      · exact h k hM

end

end ProbeChain.WriteBack
