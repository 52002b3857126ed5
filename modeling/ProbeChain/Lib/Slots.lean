/-
# Slots and their holders

`taken` is a table that says of every slot whether somebody holds it, `holds` says who holds which.
The table is `Exact` if the two agree.  It stays so as long as a slot is released only by its
holder, and nobody takes a slot that is taken (`Single`).  Releasing a slot one does not hold is
harmless only if nobody holds it (`Exact.clear_iff`).
-/
import Mathlib.Logic.Function.Basic

namespace ProbeChain.Slots

open Function

variable {ι κ : Type*} {taken : κ → Bool} {holds : ι → Option κ}

/-- A slot is taken if and only if somebody holds it. -/
def Exact (taken : κ → Bool) (holds : ι → Option κ) : Prop :=
  ∀ b, taken b = true ↔ ∃ i, holds i = some b

/-- No slot has two holders. -/
def Single (holds : ι → Option κ) : Prop := ∀ i j b, holds i = some b → holds j = some b → i = j

section
variable [DecidableEq ι]

theorem Single.take (h : Single holds) {b : κ} (hfree : ∀ j, holds j ≠ some b) (i : ι) :
    Single (update holds i (some b)) := by
  intro j k c hj hk
  rw [update_apply] at hj hk
  split at hj <;> split at hk
  · rw [‹j = i›, ‹k = i›]
  · cases hj
    exact absurd hk (hfree k)
  · cases hk
    exact absurd hj (hfree j)
  · exact h j k c hj hk

theorem Single.release (h : Single holds) (i : ι) : Single (update holds i none) := by
  intro j k c hj hk
  rw [update_apply] at hj hk
  split at hj
  · cases hj
  · split at hk
    · cases hk
    · exact h j k c hj hk

variable [DecidableEq κ]

theorem Exact.take (h : Exact taken holds) {i : ι} (hi : holds i = none) (b : κ) :
    Exact (update taken b true) (update holds i (some b)) := by
  intro c
  rw [update_apply]
  by_cases hc : c = b
  · subst hc
    exact iff_of_true (if_pos rfl) ⟨i, update_self i _ holds⟩
  · rw [if_neg hc, h c]
    constructor
    · rintro ⟨j, hj⟩
      refine ⟨j, ?_⟩
      rw [update_of_ne (fun hji => ?_)]
      · exact hj
      · subst hji
        rw [hi] at hj
        cases hj
    · rintro ⟨j, hj⟩
      rw [update_apply] at hj
      split at hj
      · cases hj
        exact absurd rfl hc
      · exact ⟨j, hj⟩

theorem Exact.release (h : Exact taken holds) (hs : Single holds) {i : ι} {b : κ}
    (hi : holds i = some b) :
    Exact (update taken b false) (update holds i none) := by
  intro c
  rw [update_apply]
  by_cases hc : c = b
  · subst hc
    rw [if_pos rfl]
    refine iff_of_false Bool.false_ne_true ?_
    rintro ⟨j, hj⟩
    rw [update_apply] at hj
    split at hj
    · cases hj
    · exact absurd (hs j i c hj hi) ‹_›
  · rw [if_neg hc, h c]
    refine exists_congr fun j => ?_
    rw [update_apply]
    split
    · subst_vars
      rw [hi]
      exact iff_of_false (fun heq => hc (Option.some.inj heq).symm) (by rintro ⟨⟩)
    · rfl

end

/-- Clearing a slot keeps the table right if and only if nobody holds it. -/
theorem Exact.clear_iff [DecidableEq κ] (h : Exact taken holds) (b : κ) :
    Exact (update taken b false) holds ↔ ∀ i, holds i ≠ some b := by
  constructor
  · intro hclear i hi
    have htaken := (hclear b).mpr ⟨i, hi⟩
    rw [update_self] at htaken
    cases htaken
  · intro hfree c
    rw [update_apply]
    split
    · subst_vars
      exact iff_of_false Bool.false_ne_true fun ⟨i, hi⟩ => hfree i hi
    · exact h c

end ProbeChain.Slots
