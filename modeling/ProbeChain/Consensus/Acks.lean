/-
# Acks in a block

`CheckAcks` of `core/blockchain.go`.  A block carries acks for its parent.  Each must be signed by a
validator of the block, at most one by each, and more than a third of the validators must agree.

The check that an ack is about the parent compares the digest of the ACK with the hash of the
parent, and rejects the ack when they are EQUAL.  `BlockHash` is not looked at.  So what is counted
are agreeing acks for any block at all, and `checkAcks_agree_iff` says which part of them is worth
anything: those that name the parent.
-/
import ProbeChain.Lib.Run
import ProbeChain.Consensus.Header
import Mathlib.Data.Finset.Card

namespace ProbeChain

open List UInt64

/-! ## 1. The chain and the check -/

structure Validator where
  enode : ValidatorEnode := 0
  owner : Address
  deriving DecidableEq

/-- A block as far as its acks are concerned. -/
structure Block where
  header : Header
  acks : List Ack

/-- What is asked of the chain: the validators for a number, and a block by hash and number. -/
structure Chain where
  getValidators : UInt64 → List Validator
  getBlock : Hash → UInt64 → Option Block

def Chain.checkIsValidator (bc : Chain) (number : UInt64) (owner : Address) : Bool :=
  (bc.getValidators number).any (·.owner = owner)

/-- A single validator needs no acks. -/
def checkAckNumMin (ackNum validatorNum : Nat) : Bool :=
  if validatorNum ≤ 1 then true else validatorNum * 1 / 3 < ackNum

structure AckTally where
  used : List Address := []
  commitNum : Nat := 0
  oppopsNum : Nat := 0

section
variable (K : Crypto) (bc : Chain)

/-- One turn of the loop over the acks; `none` rejects the block. -/
def countAck (number : UInt64) (parent : Header) (t : AckTally) (ack : Ack) : Option AckTally :=
  match ack.recoverOwner K with
  | none => none
  | some singer =>
    if singer ∈ t.used then none
    else if bc.checkIsValidator number singer = false ∨ ofNat ack.number ≠ number - 1 then none
    else
      if ack.ackType = ackTypeAgree then
        if ack.hash K = parent.hash K then none
        else some { t with used := singer :: t.used, commitNum := t.commitNum + 1 }
      else if ack.ackType = ackTypeOppose then
        some { t with used := singer :: t.used, oppopsNum := t.oppopsNum + 1 }
      else some { t with used := singer :: t.used }

/-- The checks after the loop. -/
def checkAckCount (block : Block) (parent : Header) (t : AckTally) : Bool :=
  let header := block.header
  let number := ofNat header.number
  let validatorNum := (bc.getValidators number).length
  if header.acksHash ≠ calcAckHash K block.acks then false
  else match header.ackCountList with
    | [ackCount] =>
      if ofNat ackCount.blockNumber ≠ number - 1 then false
      else if parent.isVisual then
        header.validatorAddr = parent.validatorAddr &&
          (ackCount.ackCount = ofNat t.oppopsNum && t.commitNum = 0 &&
            checkAckNumMin t.oppopsNum validatorNum)
      else ackCount.ackCount = ofNat t.commitNum && t.oppopsNum = 0 &&
        checkAckNumMin t.commitNum validatorNum
    | _ => false

/-- An unknown parent is dereferenced. -/
def checkAcks (block : Block) : Option Bool :=
  let number := ofNat block.header.number
  match bc.getBlock block.header.parentHash (number - 1) with
  | none => none
  | some parent =>
    match Run.run (countAck K bc number parent.header) block.acks {} with
    | none => some false
    | some t => some (checkAckCount K bc block parent.header t)

/-! ## 2. What the loop makes sure of -/

variable {K bc} {number : UInt64} {parent : Header} {t t' : AckTally}

/-- **One turn.**  The signer is a validator that has not signed before. -/
theorem countAck_cases {ack : Ack} (h : countAck K bc number parent t ack = some t') :
    ∃ singer, ack.recoverOwner K = some singer ∧ singer ∉ t.used ∧
      bc.checkIsValidator number singer = true ∧ t'.used = singer :: t.used := by
  unfold countAck at h
  cases hs : ack.recoverOwner K with
  | none => rw [hs] at h; cases h
  | some singer =>
    simp only [hs] at h
    split at h
    · cases h
    rename_i hfresh
    split at h
    · cases h
    rename_i hlegal
    have hvalid : bc.checkIsValidator number singer = true := by
      rw [← Bool.not_eq_false]
      exact fun h => hlegal (.inl h)
    refine ⟨singer, rfl, hfresh, hvalid, ?_⟩
    split at h
    · split at h
      · cases h
      · cases h; rfl
    · split at h <;> cases h <;> rfl

/-- **The whole loop.**  Every ack has a signer, who is a validator, and no two have the same. -/
theorem run_countAck : ∀ {acks : List Ack} {t t' : AckTally},
    Run.run (countAck K bc number parent) acks t = some t' →
    (acks.filterMap (Ack.recoverOwner K)).Nodup ∧
    ∀ ack ∈ acks, ∃ singer, ack.recoverOwner K = some singer ∧ singer ∉ t.used ∧
      bc.checkIsValidator number singer = true
  | [], _, _, _ => by simp
  | ack :: acks, t, t', h => by
    obtain ⟨u, hu, hrun⟩ := Option.bind_eq_some_iff.mp h
    obtain ⟨singer, hs, hfresh, hvalid, hused⟩ := countAck_cases hu
    obtain ⟨hnodup, hall⟩ := run_countAck hrun
    constructor
    · rw [filterMap_cons_some hs, nodup_cons]
      refine ⟨fun hmem => ?_, hnodup⟩
      -- a later ack of the same signer would have been rejected
      obtain ⟨later, hlater, hsame⟩ := mem_filterMap.mp hmem
      obtain ⟨singer', hs', hnot, -⟩ := hall later hlater
      cases hsame.symm.trans hs'
      exact hnot (hused ▸ mem_cons_self)
    · intro a ha
      rcases mem_cons.mp ha with rfl | ha
      · exact ⟨singer, hs, hfresh, hvalid⟩
      · obtain ⟨singer', hs', hnot, hvalid'⟩ := hall a ha
        exact ⟨singer', hs', fun h => hnot (hused ▸ mem_cons_of_mem _ h), hvalid'⟩

end

/-! ## 3. Acks that name the parent -/

/-- An agreeing ack for the block `hash` of height `number`. -/
def Ack.AgreesWith (ack : Ack) (number : Nat) (hash : Hash) : Prop :=
  ack.ackType = ackTypeAgree ∧ ack.number = number ∧ ack.blockHash = hash

instance (ack : Ack) (number : Nat) (hash : Hash) : Decidable (ack.AgreesWith number hash) := by
  unfold Ack.AgreesWith
  infer_instance

/-- The validators that signed such an ack, each once. -/
def agreeing (K : Crypto) (validators : List Validator) (acks : List Ack) (number : Nat)
    (hash : Hash) : Finset Address :=
  (validators.map (·.owner)).toFinset.filter fun member =>
    ∃ ack ∈ acks, ack.recoverOwner K = some member ∧ ack.AgreesWith number hash

/-- After the loop there are as many such validators as there are such acks. -/
theorem card_agreeing {K : Crypto} {bc : Chain} {n : UInt64} {parent : Header} {acks : List Ack}
    {t' : AckTally} (hrun : Run.run (countAck K bc n parent) acks {} = some t') (number : Nat)
    (hash : Hash) :
    (agreeing K (bc.getValidators n) acks number hash).card =
      (acks.filter fun ack => ack.AgreesWith number hash).length := by
  obtain ⟨hnodup, hall⟩ := run_countAck hrun
  have hsub : (acks.filter fun ack => ack.AgreesWith number hash).Sublist acks := filter_sublist
  -- the signers of these acks, in the order of the block
  have hsigners : agreeing K (bc.getValidators n) acks number hash =
      ((acks.filter fun ack => ack.AgreesWith number hash).filterMap
        (Ack.recoverOwner K)).toFinset := by
    ext member
    simp only [agreeing, Finset.mem_filter, mem_toFinset, mem_filterMap, mem_filter,
      decide_eq_true_eq]
    constructor
    · rintro ⟨-, ack, hack, hs, hagrees⟩
      exact ⟨ack, ⟨hack, hagrees⟩, hs⟩
    · rintro ⟨ack, ⟨hack, hagrees⟩, hs⟩
      refine ⟨?_, ack, hack, hs, hagrees⟩
      obtain ⟨singer, hs', -, hvalid⟩ := hall ack hack
      cases hs.symm.trans hs'
      obtain ⟨v, hv, howner⟩ := any_eq_true.mp hvalid
      exact mem_map.mpr ⟨v, hv, of_decide_eq_true howner⟩
  rw [hsigners, toFinset_card_of_nodup (hnodup.sublist (hsub.filterMap _)),
    filterMap_length_eq_length.mpr]
  intro ack hack
  obtain ⟨singer, hs, -⟩ := hall ack (hsub.subset hack)
  rw [hs]
  rfl

/-- **Of the acks of an accepted block, exactly those that name its parent count**: more than a
third of the validators have agreed with the parent if and only if more agreeing acks than that name
it. -/
theorem checkAcks_agree_iff (K : Crypto) (bc : Chain) (block p : Block)
    (hp : bc.getBlock block.header.parentHash (ofNat block.header.number - 1) = some p)
    (haccepted : checkAcks K bc block = some true) :
    (bc.getValidators (ofNat block.header.number)).length / 3 <
        (agreeing K (bc.getValidators (ofNat block.header.number)) block.acks
          (block.header.number - 1) (p.header.hash K)).card ↔
      (bc.getValidators (ofNat block.header.number)).length / 3 <
        (block.acks.filter fun ack =>
          ack.AgreesWith (block.header.number - 1) (p.header.hash K)).length := by
  simp only [checkAcks, hp] at haccepted
  cases hrun : Run.run (countAck K bc (ofNat block.header.number) p.header) block.acks {} with
  | none => rw [hrun] at haccepted; cases haccepted
  | some t => rw [card_agreeing hrun]

/-- Validators `1` and `2`, and a block of height four. -/
def twoValidators : Chain where
  getValidators := fun _ => [{ owner := 1 }, { owner := 2 }]
  getBlock := fun _ _ => some { header := { number := 4, extra := [0] }, acks := [] }

/-- The block of height five with an agreeing ack by validator `1` for the block `hash`. -/
def blockWithAck (hash : Hash) : Block :=
  let acks : List Ack := [{ number := 4, blockHash := hash, ackType := ackTypeAgree,
                            witnessSig := replicate 64 0 ++ [1] }]
  { header := { number := 5, ackCountList := [⟨4, 1⟩], acksHash := calcAckHash plainCrypto acks }
    acks := acks }

theorem checkAcks_agree_iff_parent : ∃ p, twoValidators.getBlock 0 4 = some p ∧
    2 / 3 < (agreeing plainCrypto (twoValidators.getValidators 5)
      (blockWithAck (p.header.hash plainCrypto)).acks 4 (p.header.hash plainCrypto)).card :=
  ⟨_, rfl, (checkAcks_agree_iff plainCrypto twoValidators (blockWithAck _) _ rfl
    (by decide +kernel)).mpr (by decide +kernel)⟩

/-- An ack for another block is all that an accepted block has. -/
theorem checkAcks_counts_other_block : ∃ p, twoValidators.getBlock 0 4 = some p ∧
    p.header.isVisual = false ∧
    checkAcks plainCrypto twoValidators (blockWithAck 0xbad) = some true ∧
    ¬ 2 / 3 < (agreeing plainCrypto (twoValidators.getValidators 5) (blockWithAck 0xbad).acks 4
      (p.header.hash plainCrypto)).card :=
  ⟨_, rfl, by decide, by decide +kernel, by decide +kernel⟩

end ProbeChain
