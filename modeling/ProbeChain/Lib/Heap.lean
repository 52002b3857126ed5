/-
# Objects reached through pointers

A heap numbers its objects in the order they were made.  A pointer is the number of its object, and
whoever holds it reads and writes the one content there is.

Nothing is ever freed, so all there is to know is what `modify` and `alloc` do to the object they
are about and that they leave the others alone.
-/
import Mathlib.Logic.Function.Basic

namespace ProbeChain

open Function

/-- The objects are those below `size`. -/
structure Heap (α : Type*) where
  size : Nat
  get : Nat → α

namespace Heap

variable {α β : Type*} (h : Heap α)

def empty [Inhabited α] : Heap α := ⟨0, fun _ => default⟩

/-- The new object is at `h.size`. -/
def alloc (a : α) : Heap α := ⟨h.size + 1, update h.get h.size a⟩

def modify (r : Nat) (f : α → α) : Heap α := { h with get := update h.get r (f (h.get r)) }

@[simp] theorem get_alloc_self (a : α) : (h.alloc a).get h.size = a := update_self ..

theorem get_alloc_of_ne {r : Nat} (a : α) (hr : r ≠ h.size) : (h.alloc a).get r = h.get r :=
  update_of_ne hr ..

theorem get_alloc_of_lt {r : Nat} (a : α) (hr : r < h.size) : (h.alloc a).get r = h.get r :=
  h.get_alloc_of_ne a (Nat.ne_of_lt hr)

@[simp] theorem get_modify_self (r : Nat) (f : α → α) : (h.modify r f).get r = f (h.get r) :=
  update_self ..

theorem get_modify_of_ne {r r' : Nat} (f : α → α) (hr : r' ≠ r) :
    (h.modify r f).get r' = h.get r' :=
  update_of_ne hr ..

/-- What the write does not look at is the same in every object. -/
theorem view_modify {g : α → β} {f : α → α} (hg : ∀ a, g (f a) = g a) (r r' : Nat) :
    g ((h.modify r f).get r') = g (h.get r') := by
  by_cases hr : r' = r
  · rw [hr, get_modify_self, hg]
  · rw [get_modify_of_ne h f hr]

end Heap

end ProbeChain
