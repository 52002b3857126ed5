/-
# Logs of changes that can be undone

A state carries a log, newest entry first, and each entry can be undone.  `Undoes R s t` says that
`t` has grown out of `s`: its log is that of `s` with more entries in front, and undoing those leads
to a state that `R` relates to `s`.

`R` says how exactly the old state has to come back.  Undoing must respect it (`Respects`); then
growing is transitive (`Undoes.trans`), and a program that logs each of its writes is undone as a
whole.  `Undoes.absorb` weakens what has to come back: behind an entry whose undoing repairs a part
of the state, anything may have happened to that part.
-/
import ProbeChain.Lib.Run

namespace ProbeChain.Undo

variable {σ ε : Type*} (log : σ → List ε) (undo : σ → ε → Option σ) {s t : σ}

def Undoes (R : σ → σ → Prop) (s t : σ) : Prop :=
  ∃ es t', log t = es ++ log s ∧ Run.run undo es t = some t' ∧ R s t'

/-- Undoing an entry takes related states to related states. -/
def Respects (R : σ → σ → Prop) : Prop :=
  ∀ (s t s' : σ) (e : ε), R s t → undo s e = some s' → ∃ t', undo t e = some t' ∧ R s' t'

variable {log undo} {R R' : σ → σ → Prop}

/-- Nothing was logged. -/
theorem Undoes.of_log_eq (hlog : log t = log s) (h : R s t) : Undoes log undo R s t :=
  ⟨[], t, by rw [hlog, List.nil_append], rfl, h⟩

/-- One entry was logged. -/
theorem Undoes.of_log_cons {t' : σ} {e : ε} (hlog : log t = e :: log s)
    (hundo : undo t e = some t') (h : R s t') : Undoes log undo R s t := by
  refine ⟨[e], t', hlog, ?_, h⟩
  rw [Run.run, hundo]
  rfl

theorem Undoes.mono (hR : ∀ t', R s t' → R' s t') (h : Undoes log undo R s t) :
    Undoes log undo R' s t := by
  obtain ⟨es, t', hlog, hrun, hst⟩ := h
  exact ⟨es, t', hlog, hrun, hR t' hst⟩

theorem Undoes.trans (htrans : ∀ s t u, R s t → R t u → R s u) (hundo : Respects undo R)
    {u : σ} (hst : Undoes log undo R s t) (htu : Undoes log undo R t u) :
    Undoes log undo R s u := by
  obtain ⟨es, t', hlog, hrun, hR⟩ := hst
  obtain ⟨es', u', hlog', hrun', hR'⟩ := htu
  -- the older entries are undone from `u'` instead of `t`
  obtain ⟨v, hv, htv⟩ := Run.run_sim (hundo _ _ _ _) hR' hrun
  refine ⟨es' ++ es, v, ?_, ?_, htrans _ _ _ hR htv⟩
  · rw [hlog', hlog, List.append_assoc]
  · rw [Run.run_append, hrun', Option.bind_some, hv]

/-- Behind an entry, only as much has to come back as the entry does not repair. -/
theorem Undoes.absorb {s₁ : σ} {e : ε} (h : Undoes log undo R' s₁ t) (hlog : log s₁ = e :: log s)
    (hundo : ∀ t', R' s₁ t' → ∃ t'', undo t' e = some t'' ∧ R s t'') : Undoes log undo R s t := by
  obtain ⟨es, t', hlog', hrun, hR⟩ := h
  obtain ⟨t'', ht'', hst⟩ := hundo t' hR
  refine ⟨es ++ [e], t'', ?_, ?_, hst⟩
  · rw [hlog', hlog, List.append_assoc, List.singleton_append]
  · rw [Run.run_append, hrun, Option.bind_some, Run.run, ht'']
    rfl

end ProbeChain.Undo
