/-
# Chains of checks

A function that checks one condition after another and returns the first error is a `do` block in
`Except ε`.  `require` is one condition, `getOr` a value that may be missing.  The lemmas say when
such a block succeeds, one bind at a time.

`Avoids bad c` says that the block does not end in an error of a certain kind.  It is computed one
bind at a time, too: what comes later counts only where everything before has succeeded.
-/
import Mathlib.Init

namespace ProbeChain.Check

variable {ε : Type*} {α β : Type} {f : α → Except ε β} {c : Except ε α} {o : Option α} {p : Prop}
  {e : ε} {x : α}

/-- Returns the error unless the condition holds. -/
def require (p : Prop) [Decidable p] (e : ε) : Except ε Unit := if p then .ok () else .error e

/-- What was looked up or decoded, or the error. -/
def getOr (o : Option α) (e : ε) : Except ε α :=
  match o with
  | some x => .ok x
  | none => .error e

@[simp] theorem require_eq_ok [Decidable p] : require p e = .ok () ↔ p := by
  unfold require
  split <;> simp [*]

theorem bind_eq_ok {x : β} : (c >>= f) = .ok x ↔ ∃ a, c = .ok a ∧ f a = .ok x := by
  cases c <;> simp [bind, Except.bind]

theorem then_eq_ok {c : Except ε Unit} {f : Unit → Except ε α} :
    (c >>= f) = .ok x ↔ c = .ok () ∧ f () = .ok x := by
  cases c <;> simp [bind, Except.bind]

@[simp] theorem require_bind_eq_ok [Decidable p] {f : Unit → Except ε α} :
    (require p e >>= f) = .ok x ↔ p ∧ f () = .ok x := by
  unfold require
  split <;> simp [*, bind, Except.bind]

@[simp] theorem getOr_bind_eq_ok {x : β} :
    (getOr o e >>= f) = .ok x ↔ ∃ a, o = some a ∧ f a = .ok x := by
  cases o <;> simp [getOr, bind, Except.bind]

@[simp] theorem mapError_eq_ok {ε' : Type*} {g : ε → ε'} : c.mapError g = .ok x ↔ c = .ok x := by
  cases c with
  | ok a =>
    constructor
    · rintro ⟨rfl⟩
      rfl
    · rintro ⟨rfl⟩
      rfl
  | error e =>
    constructor
    · rintro ⟨⟩
    · rintro ⟨⟩

/-! ## Errors of a kind -/

/-- The computation does not end in an error that is `bad`. -/
def Avoids (bad : ε → Prop) (c : Except ε α) : Prop := ∀ e, c = .error e → ¬ bad e

variable {bad : ε → Prop}

@[simp] theorem avoids_ok (x : α) : Avoids bad (.ok x : Except ε α) := nofun

@[simp] theorem avoids_error : Avoids bad (.error e : Except ε α) ↔ ¬ bad e := by
  constructor
  · exact fun h => h e rfl
  · intro h e' he
    cases he
    exact h

@[simp] theorem avoids_require [Decidable p] : Avoids bad (require p e) ↔ (bad e → p) := by
  unfold require
  by_cases hp : p
  · simp [hp]
  · simp [hp]

@[simp] theorem avoids_getOr : Avoids bad (getOr o e) ↔ (bad e → o.isSome) := by
  cases o with
  | none => simp [getOr]
  | some x => simp [getOr]

theorem avoids_bind : Avoids bad (c >>= f) ↔ Avoids bad c ∧ ∀ a, c = .ok a → Avoids bad (f a) := by
  cases c with
  | ok a => simp [bind, Except.bind]
  | error e => simp [bind, Except.bind]

theorem avoids_then {c : Except ε Unit} {f : Unit → Except ε α} :
    Avoids bad (c >>= f) ↔ Avoids bad c ∧ (c = .ok () → Avoids bad (f ())) := by
  rw [avoids_bind]
  exact and_congr_right fun _ => ⟨fun h => h (), fun h _ => h⟩

/-- Looking something up, where it is no bad error that it is missing. -/
theorem avoids_getOr_bind (he : ¬ bad e) :
    Avoids bad (getOr o e >>= f) ↔ ∀ a, o = some a → Avoids bad (f a) := by
  cases o with
  | none => simp [getOr, bind, Except.bind, he]
  | some a => simp [getOr, bind, Except.bind]

/-- Checking something, where it is no bad error that it fails. -/
theorem avoids_require_bind [Decidable p] {f : Unit → Except ε β} (he : ¬ bad e) :
    Avoids bad (require p e >>= f) ↔ (p → Avoids bad (f ())) := by
  unfold require
  by_cases hp : p
  · simp [hp, bind, Except.bind]
  · simp [hp, bind, Except.bind, he]

theorem avoids_mapError {ε' : Type*} {g : ε → ε'} {bad' : ε' → Prop} :
    Avoids bad' (c.mapError g) ↔ Avoids (fun e => bad' (g e)) c := by
  cases c with
  | ok a => exact iff_of_true (avoids_ok a) (avoids_ok a)
  | error e =>
    rw [avoids_error]
    exact avoids_error

end ProbeChain.Check
