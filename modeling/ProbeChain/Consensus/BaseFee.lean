/-
# The base fee along a chain

What `consensus/misc/eip1559.go` makes of the base fee from the first header of the London fork on.
The parent of that header has no base fee and the header has the initial one; from there on each
base fee follows from the one before.

The initial base fee is also the least one, which the plain rule would not keep: `baseFee_run`
carries it along the run, and that a header with little gas never raises the fee rests on it.
-/
import ProbeChain.Consensus.Verify

namespace ProbeChain

open Check

/-- The gas at which the base fee stays. -/
def Header.gasTarget (h : Header) : UInt64 := h.gasLimit / elasticityMultiplier

/-- A header of the fork that is accepted after its parent. -/
def Eip1559Step (config : ChainConfig) (parent header : Header) : Prop :=
  config.isLondon header.number = true ∧ verifyEip1559Header config parent header = .ok ()

/-- How the base fee may move after `parent`. -/
structure FeeMoves (parent : Header) (fee fee' : Nat) : Prop where
  floor : initialBaseFee ≤ fee'
  below : parent.gasUsed < parent.gasTarget → fee' ≤ fee
  above : parent.gasTarget < parent.gasUsed → fee + 1 ≤ fee'
  eighth : fee - fee / 8 ≤ fee'

variable {config : ChainConfig} {parent header : Header}

/-- A part of the target takes at most an eighth off. -/
theorem feeDelta_le (fee : Nat) {delta target : Nat} (h : delta ≤ target) :
    fee * delta / target / baseFeeChangeDenominator ≤ fee / 8 := by
  refine Nat.div_le_div_right ?_
  obtain rfl | hpos := Nat.eq_zero_or_pos target
  · simp
  · exact Nat.div_le_of_le_mul ((Nat.mul_le_mul_left fee h).trans_eq (Nat.mul_comm ..))

/-- One step, from a base fee that is at least the initial one. -/
theorem feeMoves_of_calcBaseFee {fee fee' : Nat} (hlondon : config.isLondon parent.number = true)
    (hfee : parent.baseFee = some fee) (hfloor : initialBaseFee ≤ fee)
    (h : calcBaseFee config parent = .ok fee') :
    FeeMoves parent fee fee' := by
  rw [calcBaseFee, if_neg (by simp [hlondon]), getOr_bind_eq_ok] at h
  obtain ⟨_, hsome, h⟩ := h
  cases hfee.symm.trans hsome
  split at h
  · -- at the target the fee stays
    rename_i htarget
    cases h
    have hfixed : parent.gasUsed = parent.gasTarget := htarget
    refine ⟨hfloor, fun _ => le_rfl, fun hlt => ?_, Nat.sub_le ..⟩
    exact absurd hlt (hfixed ▸ UInt64.lt_irrefl _)
  · split at h
    next habove =>
      obtain ⟨-, h⟩ := require_bind_eq_ok.mp h
      cases h
      have hone :=
        Nat.le_max_right (fee * (parent.gasUsed - parent.gasLimit / elasticityMultiplier).toNat /
        (parent.gasLimit / elasticityMultiplier).toNat / baseFeeChangeDenominator) 1
      refine ⟨by omega, fun hlt => ?_, fun _ => by omega, by omega⟩
      exact absurd (UInt64.lt_trans hlt habove) (UInt64.lt_irrefl _)
    next hne habove =>
      cases h
      have hle : (parent.gasLimit / elasticityMultiplier - parent.gasUsed).toNat ≤
          (parent.gasLimit / elasticityMultiplier).toNat := by
        rw [UInt64.toNat_sub_of_le _ _ (UInt64.not_lt.mp habove)]
        exact Nat.sub_le ..
      have hdelta := feeDelta_le fee hle
      refine ⟨Nat.le_max_right .., fun _ => max_le (Nat.sub_le ..) hfloor,
        fun hlt => absurd hlt habove, ?_⟩
      exact (Nat.sub_le_sub_left hdelta fee).trans (Nat.le_max_left ..)

theorem Eip1559Step.baseFee (h : Eip1559Step config parent header) :
    ∃ fee, header.baseFee = some fee ∧ calcBaseFee config parent = .ok fee :=
  (verifyEip1559Header_eq_ok.mp h.2).2

/-- The fees of a run that has begun. -/
theorem feeMoves_run {fee : Nat} {headers : List Header}
    (hlondon : config.isLondon parent.number = true) (hfee : parent.baseFee = some fee)
    (hfloor : initialBaseFee ≤ fee) (hrun : (parent :: headers).IsChain (Eip1559Step config)) :
    (∀ h ∈ headers, ∃ fee, h.baseFee = some fee ∧ initialBaseFee ≤ fee) ∧
      (parent :: headers).IsChain fun p h =>
        ∃ fee fee', p.baseFee = some fee ∧ h.baseFee = some fee' ∧ FeeMoves p fee fee' := by
  -- the least fee carries the induction: without it the next fee could be raised to it
  induction headers generalizing parent fee with
  | nil => exact ⟨by simp, .singleton _⟩
  | cons header headers ih =>
    rw [List.isChain_cons_cons] at hrun
    obtain ⟨fee', hfee', hcalc⟩ := hrun.1.baseFee
    have hmoves := feeMoves_of_calcBaseFee hlondon hfee hfloor hcalc
    obtain ⟨hall, hchain⟩ := ih hrun.1.1 hfee' hmoves.floor hrun.2
    exact ⟨List.forall_mem_cons.mpr ⟨⟨fee', hfee', hmoves.floor⟩, hall⟩,
      List.isChain_cons_cons.mpr ⟨⟨fee, fee', hfee, hfee', hmoves⟩, hchain⟩⟩

/-- **Along every run from a parent before the fork** the base fee is at least the initial one, and
from each header to the next it moves by the rule, whatever gas is used. -/
theorem baseFee_run (config : ChainConfig) {parent : Header} {headers : List Header}
    (hparent : config.isLondon parent.number = false)
    (hrun : (parent :: headers).IsChain (Eip1559Step config)) :
    (∀ h ∈ headers, ∃ fee, h.baseFee = some fee ∧ initialBaseFee ≤ fee) ∧
      headers.IsChain fun p h =>
        ∃ fee fee', p.baseFee = some fee ∧ h.baseFee = some fee' ∧ FeeMoves p fee fee' := by
  cases headers with
  | nil => exact ⟨by simp, .nil⟩
  | cons header headers =>
    rw [List.isChain_cons_cons] at hrun
    obtain ⟨fee, hfee, hcalc⟩ := hrun.1.baseFee
    rw [calcBaseFee, if_pos hparent] at hcalc
    cases hcalc
    obtain ⟨hall, hchain⟩ := feeMoves_run hrun.1.1 hfee le_rfl hrun.2
    exact ⟨List.forall_mem_cons.mpr ⟨⟨_, hfee, le_rfl⟩, hall⟩, hchain⟩

/-- A full block after the fork raises the fee by an eighth. -/
theorem baseFee_run_full :
    let full : Header :=
  { number := 1, gasLimit := 16000000, gasUsed := 16000000, baseFee := some 1000000000 }
    let next : Header := { number := 2, gasLimit := 16000000, baseFee := some 1125000000 }
    [full, next].IsChain fun p h =>
      ∃ fee fee', p.baseFee = some fee ∧ h.baseFee = some fee' ∧ FeeMoves p fee fee' :=
  (@baseFee_run ⟨some 1, none⟩ { gasLimit := 8000000 } _ rfl
    (.cons_cons ⟨rfl, by decide⟩ (.cons_cons ⟨rfl, by decide⟩ (.singleton _)))).2

end ProbeChain
