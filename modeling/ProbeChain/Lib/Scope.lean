/-
# Nested scopes

A program takes actions and opens scopes.  A scope ends by being kept, and then nothing happens, or
by being abandoned, and then the state is taken back.  `Trace` is what such a program has done;
`Trace.run` does it again, and a `Store` says how: what an action does, what opening a scope does,
and what comes of abandoning one, given the state it was opened in and the state now.

`Each` asks something of every action, at the state it is met in.  `Along` asks it only of the
actions that are not taken back, and something else of every scope that is.  There are two rules for
a whole program.  `run_inv` is about what every action keeps and the abandoning of a scope does,
too.  `run_rel` leaves out what is taken back: a relation that is kept by every action, and by every
abandoned scope because the scope goes back far enough, relates the beginning to the end.
-/
import ProbeChain.Lib.Run

namespace ProbeChain.Scope

open Option

variable {σ α : Type*}

structure Store (σ α : Type*) where
  step : σ → α → Option σ
  enter : σ → σ
  abandon : σ → σ → Option σ

inductive Trace (α : Type*) where
  | nil
  | act (a : α) (rest : Trace α)
  | scope (body : Trace α) (abandoned : Bool) (rest : Trace α)

/-- The end of a scope that was opened in `s`. -/
def Store.leave (M : Store σ α) (abandoned : Bool) (s t : σ) : Option σ :=
  if abandoned then M.abandon s t else some t

namespace Trace

def append : Trace α → Trace α → Trace α
  | nil, q => q
  | act a rest, q => act a (rest.append q)
  | scope body abandoned rest, q => scope body abandoned (rest.append q)

variable (M : Store σ α)

def run : Trace α → σ → Option σ
  | nil, s => some s
  | act a rest, s => (M.step s a).bind (run rest)
  | scope body abandoned rest, s =>
    (run body (M.enter s)).bind fun t => (M.leave abandoned s t).bind (run rest)

/-- `P` of every action. -/
def Each (P : σ → α → Prop) : Trace α → σ → Prop
  | nil, _ => True
  | act a rest, s => P s a ∧ ∀ s', M.step s a = some s' → Each P rest s'
  | scope body abandoned rest, s =>
    Each P body (M.enter s) ∧
      ∀ t u, run M body (M.enter s) = some t → M.leave abandoned s t = some u → Each P rest u

/-- `P` of every action that is not taken back, and `C` of every scope that is. -/
def Along (P : σ → α → Prop) (C : σ → Trace α → Prop) : Trace α → σ → Prop
  | nil, _ => True
  | act a rest, s => P s a ∧ ∀ s', M.step s a = some s' → Along P C rest s'
  | scope body abandoned rest, s =>
    (abandoned = true → C s body) ∧ (abandoned = false → Along P C body (M.enter s)) ∧
      ∀ t u, run M body (M.enter s) = some t → M.leave abandoned s t = some u → Along P C rest u

/-- Abandoning the scope leads to a state that `E` relates to where it was opened. -/
def GoesBack (E : σ → σ → Prop) (s : σ) (body : Trace α) : Prop :=
  ∀ t u, run M body (M.enter s) = some t → M.abandon s t = some u → E s u

/-- `Q` of every action, wherever it is met. -/
def All (Q : α → Prop) : Trace α → Prop
  | nil => True
  | act a rest => Q a ∧ All Q rest
  | scope body _ rest => All Q body ∧ All Q rest

/-- The actions in order, those that were taken back included. -/
def toList : Trace α → List α
  | nil => []
  | act a rest => a :: rest.toList
  | scope body _ rest => body.toList ++ rest.toList

/-- No scope was opened. -/
def Flat : Trace α → Prop
  | nil => True
  | act _ rest => Flat rest
  | scope _ _ _ => False

variable {M}

theorem run_append : ∀ (p q : Trace α) (s : σ),
    run M (p.append q) s = (run M p s).bind (run M q) := by
  intro p
  induction p with
  | nil => intro q s; rfl
  | act a rest ih =>
    intro q s
    simp only [append, run, bind_assoc]
    exact bind_congr fun t _ => ih q t
  | scope body abandoned rest _ ih =>
    intro q s
    simp only [append, run, bind_assoc]
    exact bind_congr fun t _ => bind_congr fun u _ => ih q u

variable {P P' : σ → α → Prop} {C : σ → Trace α → Prop} {Q : α → Prop}

theorem along_append : ∀ {p q : Trace α} {s : σ},
    Along M P C (p.append q) s ↔
      Along M P C p s ∧ ∀ t, run M p s = some t → Along M P C q t := by
  intro p
  induction p with
  | nil =>
    intro q s
    exact ⟨fun h => ⟨trivial, fun t ht => some.inj ht ▸ h⟩, fun h => h.2 s rfl⟩
  | act a rest ih =>
    intro q s
    simp only [append, Along, run, bind_eq_some_iff, ih]
    constructor
    · rintro ⟨hP, hrest⟩
      refine ⟨⟨hP, fun s' hs' => (hrest s' hs').1⟩, ?_⟩
      rintro t ⟨s', hs', ht⟩
      exact (hrest s' hs').2 t ht
    · rintro ⟨⟨hP, hrest⟩, hq⟩
      exact ⟨hP, fun s' hs' => ⟨hrest s' hs', fun t ht => hq t ⟨s', hs', ht⟩⟩⟩
  | scope body abandoned rest _ ih =>
    intro q s
    simp only [append, Along, run, bind_eq_some_iff, ih]
    constructor
    · rintro ⟨hC, hbody, hrest⟩
      refine ⟨⟨hC, hbody, fun t u ht hu => (hrest t u ht hu).1⟩, ?_⟩
      rintro v ⟨t, ht, u, hu, hv⟩
      exact (hrest t u ht hu).2 v hv
    · rintro ⟨⟨hC, hbody, hrest⟩, hq⟩
      exact ⟨hC, hbody, fun t u ht hu => ⟨hrest t u ht hu, fun v hv => hq v ⟨t, ht, u, hu, hv⟩⟩⟩

theorem each_iff_along : ∀ {p : Trace α} {s : σ},
    Each M P p s ↔ Along M P (fun s body => Each M P body (M.enter s)) p s := by
  intro p
  induction p with
  | nil => exact .rfl
  | act a rest ih =>
    exact and_congr_right fun _ => forall_congr' fun s' => imp_congr_right fun _ => ih
  | scope body abandoned rest ihbody ih =>
    intro s
    have hrest : (∀ t u, run M body (M.enter s) = some t → M.leave abandoned s t = some u →
        Each M P rest u) ↔ ∀ t u, run M body (M.enter s) = some t → M.leave abandoned s t = some u →
        Along M P (fun s body => Each M P body (M.enter s)) rest u :=
      forall_congr' fun t => forall_congr' fun u => imp_congr_right fun _ =>
        imp_congr_right fun _ => ih
    simp only [Each, Along, hrest, ← ihbody]
    cases abandoned with
    | false => simp
    | true => simp

theorem each_append {p q : Trace α} {s : σ} :
    Each M P (p.append q) s ↔ Each M P p s ∧ ∀ t, run M p s = some t → Each M P q t := by
  rw [each_iff_along, along_append, ← each_iff_along]
  exact and_congr_right fun _ => forall_congr' fun t => imp_congr_right fun _ => each_iff_along.symm

/-- What is so of every action may be used along the run. -/
theorem Along.and_each {Q : σ → α → Prop} :
    ∀ {p : Trace α} {s : σ}, Along M P C p s → Each M Q p s →
      Along M (fun s a => P s a ∧ Q s a) C p s := by
  intro p
  induction p with
  | nil => intro s h hQ; trivial
  | act a rest ih => exact fun h hQ => ⟨⟨h.1, hQ.1⟩, fun s' hs' => ih (h.2 s' hs') (hQ.2 s' hs')⟩
  | scope body abandoned rest ihbody ih =>
    intro s h hQ
    exact ⟨h.1, fun hab => ihbody (h.2.1 hab) hQ.1,
      fun t u ht hu => ih (h.2.2 t u ht hu) (hQ.2 t u ht hu)⟩

theorem Each.mono (hP : ∀ s a, P s a → P' s a) :
    ∀ {p : Trace α} {s : σ}, Each M P p s → Each M P' p s := by
  intro p
  induction p with
  | nil => intro s h; trivial
  | act a rest ih => exact fun h => ⟨hP _ _ h.1, fun s' hs' => ih (h.2 s' hs')⟩
  | scope body abandoned rest ihbody ih =>
    exact fun h => ⟨ihbody h.1, fun t u ht hu => ih (h.2 t u ht hu)⟩

/-- What does not depend on the state is so of every action in the list. -/
theorem Each.all : ∀ {p : Trace α} {s t : σ}, Each M (fun _ => Q) p s →
    run M p s = some t → All Q p := by
  intro p
  induction p with
  | nil => intro s t h ht; trivial
  | act a rest ih =>
    intro s t h ht
    obtain ⟨s', hs', ht⟩ := bind_eq_some_iff.mp ht
    exact ⟨h.1, ih (h.2 s' hs') ht⟩
  | scope body abandoned rest ihbody ih =>
    intro s t h ht
    obtain ⟨u, hu, ht⟩ := bind_eq_some_iff.mp ht
    obtain ⟨v, hv, ht⟩ := bind_eq_some_iff.mp ht
    exact ⟨ihbody h.1 hu, ih (h.2 u v hu hv) ht⟩

/-- Conditions that agree on what is met agree on the run. -/
theorem each_congr (h : ∀ s a, Q a → (P s a ↔ P' s a)) :
    ∀ {p : Trace α} {s : σ}, All Q p → (Each M P p s ↔ Each M P' p s) := by
  intro p
  induction p with
  | nil => exact fun _ => .rfl
  | act a rest ih =>
    exact fun hQ =>
      and_congr (h _ a hQ.1) (forall_congr' fun s' => imp_congr_right fun _ => ih hQ.2)
  | scope body abandoned rest ihbody ih =>
    intro s hQ
    refine and_congr (ihbody hQ.1) (forall_congr' fun t => forall_congr' fun u => ?_)
    exact imp_congr_right fun _ => imp_congr_right fun _ => ih hQ.2

theorem Along.mono {C' : σ → Trace α → Prop}
    (hP : ∀ s a, P s a → P' s a) (hC : ∀ s body, C s body → C' s body) :
    ∀ {p : Trace α} {s : σ}, Along M P C p s → Along M P' C' p s := by
  intro p
  induction p with
  | nil => intro s h; trivial
  | act a rest ih => exact fun h => ⟨hP _ _ h.1, fun s' hs' => ih (h.2 s' hs')⟩
  | scope body abandoned rest ihbody ih =>
    intro s h
    exact ⟨fun hab => hC _ _ (h.1 hab), fun hab => ihbody (h.2.1 hab),
      fun t u ht hu => ih (h.2.2 t u ht hu)⟩

theorem toList_append (p q : Trace α) : (p.append q).toList = p.toList ++ q.toList := by
  induction p with
  | nil => rfl
  | act a rest ih => rw [append, toList, toList, ih, List.cons_append]
  | scope body abandoned rest _ ih => rw [append, toList, toList, ih, List.append_assoc]

theorem all_iff_forall_mem {p : Trace α} : All Q p ↔ ∀ a ∈ p.toList, Q a := by
  induction p with
  | nil => simp [All, toList]
  | act a rest ih => simp only [All, toList, ih, List.forall_mem_cons]
  | scope body abandoned rest ihbody ih =>
    simp only [All, toList, ihbody, ih, List.forall_mem_append]

theorem Flat.append : ∀ {p q : Trace α}, Flat p → Flat q → Flat (p.append q) := by
  intro p q hp hq
  induction p with
  | nil => exact hq
  | act a rest ih => exact ih hp
  | scope body abandoned rest _ _ => exact hp.elim

/-- Without scopes there is nothing to abandon. -/
theorem Flat.along (hP : ∀ s a, P s a) : ∀ {p : Trace α} {s : σ}, Flat p → Along M P C p s := by
  intro p
  induction p with
  | nil => intro s h; trivial
  | act a rest ih => exact fun h => ⟨hP _ a, fun s' _ => ih h⟩
  | scope body abandoned rest _ _ => exact fun h => h.elim

/-- **What holds all along.**  An invariant that is kept by every action, by opening a scope and by
abandoning one in which it holds. -/
theorem run_inv {K : σ → Prop}
    (hstep : ∀ {s a s'}, K s → P s a → M.step s a = some s' → K s')
    (henter : ∀ {s}, K s → K (M.enter s))
    (habandon : ∀ {s t u}, K s → K t → M.abandon s t = some u → K u) :
    ∀ {p : Trace α} {s s' : σ}, K s → Each M P p s → run M p s = some s' → K s' := by
  intro p
  induction p with
  | nil =>
    intro s s' hK _ h
    exact some.inj h ▸ hK
  | act a rest ih =>
    intro s s' hK hP h
    obtain ⟨t, ht, hrun⟩ := bind_eq_some_iff.mp h
    exact ih (hstep hK hP.1 ht) (hP.2 t ht) hrun
  | scope body abandoned rest ihbody ih =>
    intro s s' hK hP h
    obtain ⟨t, ht, h⟩ := bind_eq_some_iff.mp h
    obtain ⟨u, hu, hrun⟩ := bind_eq_some_iff.mp h
    have hbody : K t := ihbody (henter hK) hP.1 ht
    refine ih ?_ (hP.2 t u ht hu) hrun
    cases abandoned with
    | false => exact some.inj hu ▸ hbody
    | true => exact habandon hK hbody hu

/-- **From actions to programs.**  A relation that every action keeps, that survives opening a
scope, and that an abandoned scope cannot break because it goes back, holds between the beginning
and the end. -/
theorem run_rel {R E : σ → σ → Prop} (hrefl : ∀ s, R s s)
    (htrans : ∀ {s t u}, R s t → R t u → R s u)
    (hstep : ∀ {s a s'}, P s a → M.step s a = some s' → R s s')
    (henter : ∀ s, R s (M.enter s)) (hback : ∀ {s u}, E s u → R s u) :
    ∀ {p : Trace α} {s s' : σ}, Along M P (GoesBack M E) p s → run M p s = some s' → R s s' := by
  intro p
  induction p with
  | nil =>
    intro s s' _ h
    exact some.inj h ▸ hrefl s
  | act a rest ih =>
    intro s s' hP h
    obtain ⟨t, ht, hrun⟩ := bind_eq_some_iff.mp h
    exact htrans (hstep hP.1 ht) (ih (hP.2 t ht) hrun)
  | scope body abandoned rest ihbody ih =>
    intro s s' hP h
    obtain ⟨t, ht, h⟩ := bind_eq_some_iff.mp h
    obtain ⟨u, hu, hrun⟩ := bind_eq_some_iff.mp h
    obtain ⟨hC, hbody, hrest⟩ := hP
    refine htrans ?_ (ih (hrest t u ht hu) hrun)
    -- what happened inside counts only if the scope is kept
    cases abandoned with
    | false =>
      obtain rfl := some.inj hu
      exact htrans (henter s) (ihbody (hbody rfl) ht)
    | true => exact hback (hC rfl t u ht hu)

end Trace

end ProbeChain.Scope
