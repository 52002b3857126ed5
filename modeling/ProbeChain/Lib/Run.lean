/-
# Runs of a step function that may fail

`run step as s` takes the steps `as` one after another from `s`, and has no result when one of them
has none.  `Along P as s` says that every step of the run is taken from a state that meets `P`,
`Through I as s` that every state the run goes through meets `I`.

The two rules turn a fact about one step into a fact about a run: `run_rel` for a reflexive and
transitive relation between the states before and after, `run_inv` for a predicate that every step
keeps.  `through_iff_along` is for a predicate that not every step keeps, if one can say which do.
`run_sim` is for two runs side by side.
-/
import Mathlib.Order.Basic

namespace ProbeChain.Run

open Option

variable {σ α : Type*} (step : σ → α → Option σ) {P : σ → α → Prop} {I : σ → Prop}

def run : List α → σ → Option σ
  | [], s => some s
  | a :: as, s => (step s a).bind (run as)

/-- Every step is taken from a state that meets `P`. -/
def Along (P : σ → α → Prop) : List α → σ → Prop
  | [], _ => True
  | a :: as, s => P s a ∧ ∀ s', step s a = some s' → Along P as s'

/-- Every state meets `I`, the last one included. -/
def Through (I : σ → Prop) : List α → σ → Prop
  | [], s => I s
  | a :: as, s => I s ∧ ∀ s', step s a = some s' → Through I as s'

/-- A run on given states can be followed. -/
instance decidableAlong (P : σ → α → Prop) [∀ s a, Decidable (P s a)] :
    ∀ (as : List α) (s : σ), Decidable (Along step P as s)
  | [], _ => isTrue trivial
  | a :: as, s =>
    match h : step s a with
    | none =>
      decidable_of_iff (P s a) ⟨fun hP => ⟨hP, fun s' hs' => by rw [h] at hs'; cases hs'⟩, And.left⟩
    | some t =>
      have := decidableAlong P as t
      decidable_of_iff (P s a ∧ Along step P as t)
        ⟨fun hP => ⟨hP.1, fun s' hs' => some.inj (h.symm.trans hs') ▸ hP.2⟩,
          fun hP => ⟨hP.1, hP.2 t h⟩⟩

variable {step}

/-- **From one step to a run**, for a relation between before and after. -/
theorem run_rel {R : σ → σ → Prop} (hrefl : ∀ s, R s s) (htrans : ∀ {s t u}, R s t → R t u → R s u)
    (hstep : ∀ {s a s'}, P s a → step s a = some s' → R s s') :
    ∀ {as : List α} {s s' : σ}, Along step P as s → run step as s = some s' → R s s'
  | [], s, _, _, h => by cases h; exact hrefl s
  | a :: as, s, s', hP, h => by
    obtain ⟨t, ht, hrun⟩ := bind_eq_some_iff.mp h
    exact htrans (hstep hP.1 ht) (run_rel hrefl htrans hstep (hP.2 t ht) hrun)

/-- **From one step to a run**, for a predicate that every step keeps. -/
theorem run_inv (hstep : ∀ {s a s'}, I s → P s a → step s a = some s' → I s') :
    ∀ {as : List α} {s s' : σ}, I s → Along step P as s → run step as s = some s' → I s'
  | [], s, _, hI, _, h => by cases h; exact hI
  | a :: as, s, s', hI, hP, h => by
    obtain ⟨t, ht, hrun⟩ := bind_eq_some_iff.mp h
    exact run_inv hstep (hstep hI hP.1 ht) (hP.2 t ht) hrun

theorem Through.head {as : List α} {s : σ} (h : Through step I as s) : I s := by
  cases as with
  | nil => exact h
  | cons a as => exact h.1

/-- **A predicate that some steps break.**  Where `K` and `I` hold, a step keeps `K`, and `I` if and
only if it meets `Q`. -/
theorem through_iff_along {Q : σ → α → Prop} {K : σ → Prop}
    (hkeep : ∀ {s a s'}, K s → I s → P s a → step s a = some s' → K s')
    (hiff : ∀ {s a s'}, K s → I s → P s a → step s a = some s' → (I s' ↔ Q s a))
    {as : List α} {s t : σ} (hK : K s) (hI : I s) (hP : Along step P as s)
    (hrun : run step as s = some t) :
    Through step I as s ↔ Along step Q as s := by
  induction as generalizing s with
  | nil => exact iff_of_true hI trivial
  | cons a as ih =>
    obtain ⟨u, hu, hrun⟩ := bind_eq_some_iff.mp hrun
    have hstep := hiff hK hI hP.1 hu
    have hrest (hIu : I u) := ih (hkeep hK hI hP.1 hu) hIu (hP.2 u hu) hrun
    constructor
    · rintro ⟨-, h⟩
      have hIu := (h u hu).head
      refine ⟨hstep.mp hIu, fun s' hs' => ?_⟩
      obtain rfl := some.inj (hu.symm.trans hs')
      exact (hrest hIu).mp (h u hu)
    · rintro ⟨hQ, h⟩
      refine ⟨hI, fun s' hs' => ?_⟩
      obtain rfl := some.inj (hu.symm.trans hs')
      exact (hrest (hstep.mpr hQ)).mpr (h u hu)

theorem along_of_forall : ∀ {as : List α} (_ : ∀ a ∈ as, ∀ s, P s a) (s : σ),
    Along step P as s
  | [], _, _ => trivial
  | a :: _, h, s => ⟨h a List.mem_cons_self s, fun s' _ =>
      along_of_forall (fun b hb => h b (List.mem_cons_of_mem _ hb)) s'⟩

theorem along_true : ∀ (as : List α) (s : σ), Along step (fun _ _ => True) as s
  | [], _ => trivial
  | _ :: as, _ => ⟨trivial, fun s' _ => along_true as s'⟩

theorem run_append : ∀ (as bs : List α) (s : σ),
    run step (as ++ bs) s = (run step as s).bind (run step bs)
  | [], _, s => by rfl
  | a :: as, bs, s => by
    simp only [List.cons_append, run, bind_assoc]
    exact bind_congr fun t _ => run_append as bs t

/-- **Two runs of the same steps** stay related, and the second has a result if the first has. -/
theorem run_sim {R : σ → σ → Prop}
    (hstep : ∀ {s t s' a}, R s t → step s a = some s' → ∃ t', step t a = some t' ∧ R s' t') :
    ∀ {as : List α} {s t s' : σ}, R s t → run step as s = some s' →
      ∃ t', run step as t = some t' ∧ R s' t'
  | [], s, t, s', hR, h => by
    cases h
    exact ⟨t, rfl, hR⟩
  | a :: as, s, t, s', hR, h => by
    obtain ⟨u, hu, hrun⟩ := bind_eq_some_iff.mp h
    obtain ⟨v, hv, huv⟩ := hstep hR hu
    obtain ⟨t', ht', hR'⟩ := run_sim hstep huv hrun
    exact ⟨t', bind_eq_some_iff.mpr ⟨v, hv, ht'⟩, hR'⟩

end ProbeChain.Run
