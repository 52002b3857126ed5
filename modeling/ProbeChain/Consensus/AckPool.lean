/-
# The acks a producer collects

The ack pool of `core/blockchain.go` (`HandleAck`, `DispatchAck`, `CheckAck`, `CheckAndGetNumAcks`)
and the part of `validatorCommitNewWork` of `miner/worker.go` that puts the acks for the parent into
a block.

What the producer asks of an ack is not what `CheckAcks` asks.  The producer knows an ack by the
last 32 bytes of its signature and the verifier by its signer; the producer looks for the signer
among the validators of the parent, if it looks at all, and the verifier among those of the block;
and the producer counts against a number that was set when the mining started, or half of it.
`producer_acks_pass_iff` says what it takes for the two to agree.
-/
import ProbeChain.Consensus.Acks
import Mathlib.Data.List.AList

namespace ProbeChain

open Option List UInt64

/-! ## 1. The pool

Acks are filed by number, and the verdict on an ack is kept under its id: the pool looks into an ack
only if it has no verdict on the id.  Acks whose signatures end alike share one. -/

inductive AckStatus where
  | uncheck
  | legal
  | illegal
  deriving DecidableEq

/-- `check` starts out as `uncheck` for every id, which is what `CheckRet` makes of a missing
one. -/
structure AckPool where
  ackMap : AList (fun _ : UInt64 => List Ack) := ∅
  check : Hash → AckStatus := fun _ => .uncheck

/-- `BytesToHash` keeps the last 32 bytes of the signature. -/
def Ack.id (ack : Ack) : Hash := bytesToHash ack.witnessSig

/-- What the pool asks of the chain when an ack is looked at. -/
structure ChainView extends Chain where
  currentNumber : UInt64
  getHeaderByNumber : UInt64 → Option Header

def maxChainAcks : UInt64 := 10

namespace AckPool

variable (K : Crypto) (bc : ChainView) (pool : AckPool)

def getAcksByNum (num : UInt64) : List Ack := (pool.ackMap.lookup num).getD []

def contain (ack : Ack) : Bool :=
  (pool.getAcksByNum (ofNat ack.number)).any (·.witnessSig = ack.witnessSig)

def checkSet (ack : Ack) (result : AckStatus) : AckPool :=
  { pool with check := Function.update pool.check ack.id result }

def add (ack : Ack) : AckPool :=
  if pool.contain ack then pool
  else
    let number := ofNat ack.number
    { pool with ackMap := pool.ackMap.insert number (pool.getAcksByNum number ++ [ack]) }

/-- Forgets the acks for a number, and what was found out about them. -/
def forget (num : UInt64) : AckPool :=
  { ackMap := pool.ackMap.erase num
    check := (pool.getAcksByNum num).foldl (fun check ack => Function.update check ack.id .uncheck)
      pool.check }

def remove (currNum : UInt64) : AckPool :=
  if currNum ≤ maxChainAcks then pool
  else (pool.ackMap.keys.filter (· < currNum - maxChainAcks)).foldl forget pool

/-- Opposing acks are not looked into. -/
def ackResult (ack : Ack) : AckStatus :=
  if ack.ackType = ackTypeOppose then .legal
  else
    match ack.recoverOwner K with
    | none => .illegal
    | some singer =>
      let number := ofNat ack.number
      if (bc.getValidators number).length = 0 then .uncheck
      else if bc.checkIsValidator number singer = false then .illegal
      else
        match bc.getHeaderByNumber number with
        | none => .uncheck
        | some header => if header.hash K = ack.blockHash then .legal else .illegal

def checkAck (ack : Ack) : AckPool := pool.checkSet ack (ackResult K bc ack)

/-- An ack that has not been looked at yet is. -/
def checkIfNew (ack : Ack) : AckPool :=
  if pool.check ack.id = .uncheck then pool.checkAck K bc ack else pool

def dispatchAck : AckPool :=
  ((pool.getAcksByNum bc.currentNumber).foldl (checkIfNew K bc) pool).remove bc.currentNumber

def handleAck (ack : Ack) : AckPool :=
  if pool.contain ack then pool else (pool.add ack).dispatchAck K bc

/-- One turn of the loop of `CheckAndGetNumAcks`. -/
def takeAck (hash : Hash) (ackType : AckType) (s : AckPool × List Ack) (ack : Ack) :
    AckPool × List Ack :=
  if ackType ≠ ack.ackType then s
  else
    let pool := s.1.checkIfNew K bc ack
    if s.2.all (·.id ≠ ack.id) ∧ pool.check ack.id = .legal ∧
        (ackType = ackTypeAgree ∧ ack.blockHash = hash ∨ ackType = ackTypeOppose) then
      (pool, s.2 ++ [ack])
    else (pool, s.2)

def checkAndGetNumAcks (num : UInt64) (hash : Hash) (ackType : AckType) : AckPool × List Ack :=
  (pool.getAcksByNum num).foldl (takeAck K bc hash ackType) (pool, [])

end AckPool

/-! ## 2. The producer

How many acks are asked for does not depend on the validators of the block: it is what was set when
the mining started, and half of it with `StellarSpeed`. -/

/-- `ValidatorWitnessCount` as it was last set, and whether the quorum is halved: `StellarSpeed` is
on for the block and asks for that. -/
structure WitnessParams where
  validatorWitnessCount : Nat
  reducedAckQuorum : Bool

def WitnessParams.leastValidatorWitness (p : WitnessParams) : Nat :=
  p.validatorWitnessCount * 1 / 3 + 1

def WitnessParams.requiredAcks (p : WitnessParams) : Nat :=
  if p.reducedAckQuorum then
    let requiredAcks := p.leastValidatorWitness / 2
    if requiredAcks < 1 then 1 else requiredAcks
  else p.leastValidatorWitness

/-- The acks for the parent: agreeing ones, or opposing ones if it is visual. -/
def ackTypeFor (parent : Header) : AckType :=
  if parent.isVisual then ackTypeOppose else ackTypeAgree

def acksForParent (K : Crypto) (bc : ChainView) (pool : AckPool) (parent : Header)
    (number : UInt64) :
    List Ack :=
  (pool.checkAndGetNumAcks K bc (number - 1) (parent.hash K) (ackTypeFor parent)).2

/-- The block on `parent` with its acks, or none when there are not enough.  `header` has the fields
that do not concern the acks. -/
def commitAcks (K : Crypto) (bc : ChainView) (params : WitnessParams) (pool : AckPool)
    (header parent : Header) : Option Block :=
  let acks := acksForParent K bc pool parent (ofNat header.number)
  if acks.length < params.requiredAcks ∧ 1 < params.validatorWitnessCount then none
  else some
    { header := { header with
        parentHash := parent.hash K
        ackCountList := [⟨(ofNat header.number - 1).toNat, ofNat acks.length⟩]
        acksHash := calcAckHash K acks }
      acks := acks }

/-! ## 3. What is in the pool

Every ack is filed under its own number, whatever has happened to the pool: an ack that arrives is
put there, the loop of the producer adds none, and pruning forgets whole numbers.  `Holds.step` is
the step and `Reachable.filed` the run. -/

variable {α : Type} {m : AList (fun _ : UInt64 => List α)}

theorem lookup_foldl_erase (ns : List UInt64) (num : UInt64) :
    ∀ m : AList (fun _ : UInt64 => List α),
    (ns.foldl (fun m n => m.erase n) m).lookup num = if num ∈ ns then none else m.lookup num := by
  induction ns with
  | nil => exact fun _ => rfl
  | cons n ns ih =>
    intro m
    rw [foldl_cons, ih]
    by_cases hn : num = n
    · subst hn
      simp
    · simp [hn, AList.lookup_erase_ne hn]

/-- A pool that files `x` under `k` if it is not there. -/
theorem lookup_filed (there : Bool) (k num : UInt64) (x : α) :
    ((if there then m else m.insert k ((m.lookup k).getD [] ++ [x])).lookup num).getD [] =
      (m.lookup num).getD [] ++ if there = false ∧ num = k then [x] else [] := by
  cases there with
  | true => simp
  | false =>
    by_cases hnum : num = k
    · subst hnum
      simp
    · simp [hnum, AList.lookup_insert_ne hnum]

/-- A pool that forgets the numbers more than `window` before the current one. -/
theorem lookup_since (window currNum num : UInt64) :
    ((if currNum ≤ window then m
      else (m.keys.filter (· < currNum - window)).foldl
        (fun m n => m.erase n) m).lookup num).getD [] =
    if num.toNat + window.toNat < currNum.toNat then [] else (m.lookup num).getD [] := by
  split
  next hle => rw [if_neg (by rw [le_iff_toNat_le] at hle; omega)]
  next hlt =>
    have hlt := UInt64.lt_iff_toNat_lt.mp (UInt64.not_le.mp hlt)
    have hold : num < currNum - window ↔ num.toNat + window.toNat < currNum.toNat := by
      rw [UInt64.lt_iff_toNat_lt, UInt64.toNat_sub_of_le _ _ (UInt64.le_iff_toNat_le.mpr hlt.le)]
      omega
    simp only [lookup_foldl_erase, mem_filter, decide_eq_true_iff, hold]
    by_cases h : num.toNat + window.toNat < currNum.toNat
    · rw [if_pos h]
      by_cases hkey : num ∈ m.keys
      · rw [if_pos ⟨hkey, h⟩, getD_none]
      · rw [if_neg fun h => hkey h.1, AList.lookup_eq_none.mpr hkey, getD_none]
    · rw [if_neg h, if_neg fun h' => h h'.2]

namespace AckPool

/-- Every ack is filed under its own number. -/
def Filed (pool : AckPool) : Prop :=
  ∀ num, ∀ ack ∈ pool.getAcksByNum num, ofNat ack.number = num

/-- Every ack meets `P` with the number it is filed under. -/
def Holds (P : UInt64 → Ack → Prop) (pool : AckPool) : Prop :=
  ∀ num, ∀ ack ∈ pool.getAcksByNum num, P num ack

variable {K : Crypto} {bc : ChainView} {pool : AckPool} {P : UInt64 → Ack → Prop}

theorem Holds.empty : Holds P {} := by
  intro num a ha
  cases ha

/-- An ack that is not there yet comes last among those for its number. -/
theorem getAcksByNum_add (ack : Ack) (num : UInt64) : (pool.add ack).getAcksByNum num =
    pool.getAcksByNum num ++
      if pool.contain ack = false ∧ num = ofNat ack.number then [ack] else [] := by
  rw [getAcksByNum, getAcksByNum, ← lookup_filed, add]
  split <;> rfl

theorem foldl_forget_ackMap (ns : List UInt64) : ∀ pool : AckPool,
    (ns.foldl forget pool).ackMap = ns.foldl (fun m n => m.erase n) pool.ackMap := by
  induction ns with
  | nil => exact fun _ => rfl
  | cons n ns ih => exact fun pool => ih _

/-- **What is pruned.** -/
theorem getAcksByNum_remove (currNum num : UInt64) : (pool.remove currNum).getAcksByNum num =
    if num.toNat + maxChainAcks.toNat < currNum.toNat then [] else pool.getAcksByNum num := by
  rw [getAcksByNum, getAcksByNum, ← lookup_since, remove]
  split
  next => rfl
  next => rw [foldl_forget_ackMap]

theorem Holds.add (h : pool.Holds P) {ack : Ack} (hack : P (ofNat ack.number) ack) :
    (pool.add ack).Holds P := by
  intro num a ha
  rw [getAcksByNum_add] at ha
  rcases mem_append.mp ha with ha | ha
  · exact h num a ha
  · split at ha
    next hnew => rw [mem_singleton.mp ha, hnew.2]; exact hack
    next => cases ha

theorem Holds.remove (h : pool.Holds P) (currNum : UInt64) : (pool.remove currNum).Holds P := by
  intro num a ha
  rw [getAcksByNum_remove] at ha
  split at ha
  next => cases ha
  next => exact h num a ha

theorem checkIfNew_ackMap (ack : Ack) : (pool.checkIfNew K bc ack).ackMap = pool.ackMap := by
  unfold checkIfNew
  split <;> rfl

theorem Holds.of_ackMap {pool' : AckPool} (h : pool.Holds P) (heq : pool'.ackMap = pool.ackMap) :
    pool'.Holds P := by
  intro num a ha
  unfold getAcksByNum at ha
  rw [heq] at ha
  exact h num a ha

theorem foldl_checkIfNew_ackMap (acks : List Ack) : ∀ pool : AckPool,
    (acks.foldl (checkIfNew K bc) pool).ackMap = pool.ackMap := by
  induction acks with
  | nil => exact fun _ => rfl
  | cons ack acks ih => exact fun pool => (ih _).trans (checkIfNew_ackMap ack)

theorem Holds.handleAck (h : pool.Holds P) {ack : Ack} (hack : P (ofNat ack.number) ack) :
    (pool.handleAck K bc ack).Holds P := by
  unfold AckPool.handleAck
  split
  · exact h
  · exact ((h.add hack).of_ackMap (foldl_checkIfNew_ackMap _ _)).remove _

/-- The loop adds nothing to the pool. -/
theorem takeAck_foldl_ackMap (hash : Hash) (ackType : AckType) (acks : List Ack) :
    ∀ s : AckPool × List Ack, (acks.foldl (takeAck K bc hash ackType) s).1.ackMap = s.1.ackMap := by
  induction acks with
  | nil => exact fun _ => rfl
  | cons ack acks ih =>
    intro s
    have hstep : (takeAck K bc hash ackType s ack).1.ackMap = s.1.ackMap := by
      unfold takeAck
      split
      · rfl
      · dsimp only
        split <;> exact checkIfNew_ackMap ack
    exact (ih _).trans hstep

/-- What a node does to its pool: an ack arrives, or a producer takes acks out.  The chain may have
moved in between. -/
inductive Event where
  | handle (bc : ChainView) (ack : Ack)
  | take (bc : ChainView) (num : UInt64) (hash : Hash) (ackType : AckType)

def step (K : Crypto) (pool : AckPool) : Event → Option AckPool
  | .handle bc ack => some (pool.handleAck K bc ack)
  | .take bc num hash ackType => some (pool.checkAndGetNumAcks K bc num hash ackType).1

/-- A pool that came about by any events, in any order. -/
def Reachable (K : Crypto) (pool : AckPool) : Prop :=
  ∃ events : List Event, Run.run (step K) events {} = some pool

/-- **One event** puts no ack into the pool but the one that arrives. -/
theorem Holds.step (h : pool.Holds P) {e : Event} {pool' : AckPool}
    (he : ∀ bc ack, e = .handle bc ack → P (ofNat ack.number) ack)
    (hstep : step K pool e = some pool') : pool'.Holds P := by
  cases e with
  | handle bc ack =>
    cases hstep
    exact h.handleAck (he bc ack rfl)
  | take bc num hash ackType =>
    cases hstep
    exact h.of_ackMap (takeAck_foldl_ackMap hash ackType _ _)

theorem Reachable.filed (h : Reachable K pool) : pool.Filed := by
  obtain ⟨events, hrun⟩ := h
  refine Run.run_inv (I := Holds fun num ack => ofNat ack.number = num) ?_ Holds.empty
    (Run.along_true events _) hrun
  intro p e p' hp _ hstep
  exact hp.step (fun _ _ _ => rfl) hstep

end AckPool

/-! ## 4. Which acks of a pool count

The loop of `CheckAndGetNumAcks` looks at acks as it goes, and what it finds out about one holds for
all of its id.  Still the acks it takes can be told from the pool it starts with. -/

/-- The first ack of each id, without the ids that are in use. -/
def firstOfEachId : List Hash → List Ack → List Ack
  | _, [] => []
  | used, ack :: acks =>
    if ack.id ∈ used then firstOfEachId used acks else ack :: firstOfEachId (ack.id :: used) acks

theorem firstOfEachId_congr {used used' : List Hash} (h : ∀ id, id ∈ used ↔ id ∈ used') :
    ∀ acks : List Ack, firstOfEachId used acks = firstOfEachId used' acks
  | [] => rfl
  | ack :: acks => by
    have hcons : ∀ id, id ∈ ack.id :: used ↔ id ∈ ack.id :: used' := fun id => by
      rw [mem_cons, mem_cons, h]
    simp only [firstOfEachId, h, firstOfEachId_congr h acks, firstOfEachId_congr hcons acks]

/-- Each of them is the first with its id. -/
theorem find?_of_mem_firstOfEachId {ack : Ack} : ∀ {acks : List Ack} {used : List Hash},
    ack ∈ firstOfEachId used acks → acks.find? (·.id = ack.id) = some ack ∧ ack.id ∉ used
  | [], _, h => absurd h not_mem_nil
  | a :: acks, used, h => by
    rw [firstOfEachId] at h
    by_cases hused : a.id ∈ used
    · rw [if_pos hused] at h
      obtain ⟨hfind, hnew⟩ := find?_of_mem_firstOfEachId h
      have hne : a.id ≠ ack.id := fun heq => hnew (heq ▸ hused)
      rw [find?_cons_of_neg (by simpa using hne)]
      exact ⟨hfind, hnew⟩
    · rw [if_neg hused] at h
      rcases mem_cons.mp h with rfl | h
      · exact ⟨find?_cons_of_pos (by simp), hused⟩
      · obtain ⟨hfind, hnew⟩ := find?_of_mem_firstOfEachId h
        obtain ⟨hne, hnew⟩ := not_or.mp (mem_cons.not.mp hnew)
        rw [find?_cons_of_neg (by simpa using Ne.symm hne)]
        exact ⟨hfind, hnew⟩

namespace AckPool

section
variable (K : Crypto) (bc : ChainView) (pool : AckPool) (acks : List Ack) (hash : Hash)
  (ackType : AckType)

/-- An id is legal if it has been found to be, or the first ack with it is, the acks of the other
type left out. -/
def LegalId (id : Hash) : Prop :=
  pool.check id = .legal ∨ pool.check id = .uncheck ∧
    ((acks.filter (·.ackType = ackType)).find? (·.id = id)).map (ackResult K bc) = some .legal

instance (id : Hash) : Decidable (pool.LegalId K bc acks ackType id) :=
  inferInstanceAs (Decidable (_ ∨ _))

/-- An ack counts if it is of the type asked for, has a legal id and, if it agrees, names the
block. -/
def Counts (ack : Ack) : Prop :=
  ack.ackType = ackType ∧ pool.LegalId K bc acks ackType ack.id ∧
    (ackType = ackTypeAgree ∧ ack.blockHash = hash ∨ ackType = ackTypeOppose)

instance (ack : Ack) : Decidable (pool.Counts K bc acks hash ackType ack) :=
  inferInstanceAs (Decidable (_ ∧ _))

end

/-- The acks of a pool that count for a block on `parent`: those for the number before, the first of
each id. -/
def counted (K : Crypto) (bc : ChainView) (pool : AckPool) (parent : Header) (number : UInt64) :
    List Ack :=
  let acks := pool.getAcksByNum (number - 1)
  firstOfEachId [] (acks.filter (pool.Counts K bc acks (parent.hash K) (ackTypeFor parent)))

variable {K : Crypto} {bc : ChainView} {pool : AckPool} {num : UInt64} {hash : Hash}
  {ackType : AckType} {ack : Ack} {acks : List Ack}

theorem getValidators_ne_nil {num : UInt64} {addr : Address}
    (h : bc.checkIsValidator num addr = true) : bc.getValidators num ≠ [] := by
  intro hnil
  rw [Chain.checkIsValidator, hnil] at h
  cases h

/-- **When an ack is found to be legal**: if it opposes, or it is signed by a validator of its own
number and names the block of this number. -/
theorem ackResult_eq_legal_iff : ackResult K bc ack = .legal ↔ ack.ackType = ackTypeOppose ∨
    ∃ singer header, ack.recoverOwner K = some singer ∧
      bc.checkIsValidator (ofNat ack.number) singer = true ∧
      bc.getHeaderByNumber (ofNat ack.number) = some header ∧ header.hash K = ack.blockHash := by
  unfold ackResult
  by_cases hoppose : ack.ackType = ackTypeOppose
  · simp [hoppose]
  · cases hs : ack.recoverOwner K with
    | none => simp [hoppose]
    | some singer =>
      cases hvalid : bc.checkIsValidator (ofNat ack.number) singer with
      | false =>
        simp only [hoppose, hvalid, if_false, if_true]
        split <;> simp [hvalid]
      | true =>
        have hsome := getValidators_ne_nil hvalid
        cases hheader : bc.getHeaderByNumber (ofNat ack.number) <;>
          simp [hoppose, hvalid, hsome, hheader]

/-- An ack is left unchecked for want of validators or of a header, and then no other one for its
number is found to be legal. -/
theorem ackResult_ne_legal {ack' : Ack} (hnumber : ofNat ack.number = ofNat ack'.number)
    (htype : ack.ackType = ack'.ackType) (h : ackResult K bc ack = .uncheck) :
    ackResult K bc ack' ≠ .legal := by
  rw [Ne, ackResult_eq_legal_iff, ← htype, ← hnumber]
  unfold ackResult at h
  rintro (hoppose | ⟨singer, header, -, hvalid, hheader, -⟩)
  · rw [if_pos hoppose] at h
    cases h
  · have hsome : (bc.getValidators (ofNat ack.number)).length ≠ 0 :=
      length_eq_zero_iff.not.mpr (getValidators_ne_nil hvalid)
    split at h
    · cases h
    · cases hs : ack.recoverOwner K with
      | none => simp [hs] at h
      | some singer =>
        simp only [hs, hheader, hsome, if_false] at h
        split_ifs at h

/-- Acks that were filed under one number. -/
abbrev OneNumbered (acks : List Ack) : Prop :=
  ∀ ack ∈ acks, ∀ ack' ∈ acks, ofNat ack.number = ofNat ack'.number

/-- **One turn leaves legal what was legal.** -/
theorem legalId_checkIfNew (h : OneNumbered (ack :: acks)) (htype : ack.ackType = ackType)
    (id : Hash) :
    (pool.checkIfNew K bc ack).LegalId K bc acks ackType id ↔
      pool.LegalId K bc (ack :: acks) ackType id := by
  unfold LegalId checkIfNew
  rw [filter_cons_of_pos (by simpa using htype)]
  by_cases hid : ack.id = id
  · subst hid
    rw [find?_cons_of_pos (by simp), map_some]
    cases hcheck : pool.check ack.id with
    | legal => simp [hcheck]
    | illegal => simp [hcheck]
    | uncheck =>
      rw [if_pos rfl, checkAck, checkSet]
      simp only [Function.update_self]
      cases hresult : ackResult K bc ack with
      | legal => simp
      | illegal => simp
      | uncheck =>
        -- the next ack with this id has no better luck
        have hnone : ((acks.filter (·.ackType = ackType)).find? (·.id = ack.id)).map
            (ackResult K bc) ≠ some .legal := by
          intro hlegal
          obtain ⟨ack', hfind, hlegal⟩ := map_eq_some_iff.mp hlegal
          obtain ⟨hmem, htype'⟩ := mem_filter.mp (mem_of_find?_eq_some hfind)
          exact ackResult_ne_legal (h ack mem_cons_self ack' (mem_cons_of_mem _ hmem))
            (htype.trans (of_decide_eq_true htype').symm) hresult hlegal
        simp only [hnone, and_false, or_false, some.injEq, reduceCtorEq]
  · rw [find?_cons_of_neg (by simpa using hid)]
    split
    · rw [checkAck, checkSet]
      simp only [Function.update_of_ne (Ne.symm hid)]
    · rfl

theorem legalId_self (htype : ack.ackType = ackType) :
    (pool.checkIfNew K bc ack).check ack.id = .legal ↔
      pool.LegalId K bc (ack :: acks) ackType ack.id := by
  unfold LegalId checkIfNew
  rw [filter_cons_of_pos (by simpa using htype), find?_cons_of_pos (by simp), map_some, some.injEq]
  cases hcheck : pool.check ack.id <;> simp [hcheck, checkAck, checkSet]

/-- **The whole loop** takes the acks that count. -/
theorem takeAck_foldl_eq (hash : Hash) (ackType : AckType) : ∀ {acks : List Ack} (pool : AckPool)
    (taken : List Ack), OneNumbered acks →
    (acks.foldl (takeAck K bc hash ackType) (pool, taken)).2 =
      taken ++ firstOfEachId (taken.map (·.id))
      (acks.filter (pool.Counts K bc acks hash ackType))
  | [], pool, taken, _ => by simp [firstOfEachId]
  | ack :: acks, pool, taken, h => by
    have hrest : OneNumbered acks := fun a ha b hb =>
      h a (mem_cons_of_mem _ ha) b (mem_cons_of_mem _ hb)
    rw [foldl_cons]
    by_cases htype : ack.ackType = ackType
    · have hcounts : pool.Counts K bc (ack :: acks) hash ackType =
          (pool.checkIfNew K bc ack).Counts K bc acks hash ackType := by
        funext a
        rw [Counts, Counts, legalId_checkIfNew h htype]
      have hself : pool.Counts K bc (ack :: acks) hash ackType ack ↔
          (pool.checkIfNew K bc ack).check ack.id = .legal ∧
            (ackType = ackTypeAgree ∧ ack.blockHash = hash ∨ ackType = ackTypeOppose) := by
        rw [Counts, ← legalId_self htype, and_iff_right htype]
      have hunused : taken.all (·.id ≠ ack.id) ↔ ack.id ∉ taken.map (·.id) := by simp
      rw [takeAck, if_neg fun hne => hne htype.symm]
      dsimp only
      by_cases hcount : pool.Counts K bc (ack :: acks) hash ackType ack
      · rw [filter_cons_of_pos (by exact decide_eq_true hcount), firstOfEachId]
        by_cases hused : ack.id ∈ taken.map (·.id)
        · rw [if_neg fun hnew => hunused.mp hnew.1 hused, if_pos hused,
            takeAck_foldl_eq hash ackType _ _ hrest]
          simp only [hcounts]
        · have hids : ∀ id, id ∈ (taken ++ [ack]).map (·.id) ↔ id ∈ ack.id :: taken.map (·.id) := by
            simp [or_comm]
          rw [if_pos ⟨hunused.mpr hused, hself.mp hcount⟩, if_neg hused,
            takeAck_foldl_eq hash ackType _ _ hrest, firstOfEachId_congr hids, append_assoc]
          simp only [hcounts, singleton_append]
      · rw [filter_cons_of_neg (by exact fun hack => hcount (of_decide_eq_true hack)),
          if_neg fun hnew => hcount (hself.mpr hnew.2), takeAck_foldl_eq hash ackType _ _ hrest]
        simp only [hcounts]
    · have hcounts : pool.Counts K bc (ack :: acks) hash ackType =
          pool.Counts K bc acks hash ackType := by
        funext a
        rw [Counts, Counts, LegalId, LegalId, filter_cons_of_neg (by simpa using htype)]
      rw [takeAck, if_pos (Ne.symm htype), takeAck_foldl_eq hash ackType pool taken hrest]
      rw [filter_cons_of_neg (by exact fun hack => htype (of_decide_eq_true hack).1)]
      simp only [hcounts]

theorem mem_counted {parent : Header} {number : UInt64}
    (h : ack ∈ pool.counted K bc parent number) :
    ack ∈ pool.getAcksByNum (number - 1) ∧
      pool.Counts K bc (pool.getAcksByNum (number - 1)) (parent.hash K)
        (ackTypeFor parent) ack := by
  have hmem := mem_of_find?_eq_some (find?_of_mem_firstOfEachId h).1
  exact ⟨mem_of_mem_filter hmem, of_decide_eq_true (mem_filter.mp hmem).2⟩

/-- **The round that the producer goes by.**  An agreeing ack that has not been looked at before
counts only if a validator of the parent's number has signed it.  It is the first of its id to be
looked at: that one is legal and names the parent, and so it is the one that counts. -/
theorem signer_of_counted (hpool : pool.Reachable K) {parent : Header} {number : UInt64}
    (hreal : parent.isVisual = false) (hheader : bc.getHeaderByNumber (number - 1) = some parent)
    (h : ack ∈ pool.counted K bc parent number) (hnew : pool.check ack.id = .uncheck) :
    ∃ singer, ack.recoverOwner K = some singer ∧
      bc.checkIsValidator (number - 1) singer = true := by
  have htype : ackTypeFor parent = ackTypeAgree := by simp [ackTypeFor, hreal]
  obtain ⟨-, -, hlegal, -⟩ := mem_counted h
  obtain ⟨first, hfirst, hresult⟩ := map_eq_some_iff.mp (hlegal.resolve_left (by simp [hnew])).2
  obtain ⟨hmem, hagree⟩ := mem_filter.mp (mem_of_find?_eq_some hfirst)
  have hagree : first.ackType = ackTypeAgree := (of_decide_eq_true hagree).trans htype
  obtain ⟨singer, header, hsinger, hvalid, hnamed, hhash⟩ :=
    (ackResult_eq_legal_iff.mp hresult).resolve_left (by rw [hagree]; decide)
  rw [hpool.filed _ first hmem] at hvalid hnamed
  obtain rfl := some.inj (hheader.symm.trans hnamed)
  have hid : first.id = ack.id := by simpa using find?_some hfirst
  have hcounts : pool.Counts K bc (pool.getAcksByNum (number - 1)) (parent.hash K)
      (ackTypeFor parent) first := ⟨hagree.trans htype.symm, hid ▸ hlegal, .inl ⟨htype, hhash.symm⟩⟩
  have hsame : ack = first := by
    have hfind := (find?_of_mem_firstOfEachId h).1
    rw [find?_filter] at hfind hfirst
    obtain ⟨-, before, after, hsplit, hbefore⟩ := find?_eq_some_iff_append.mp hfirst
    rw [hsplit, find?_append, find?_eq_none.mpr, none_or, find?_cons_of_pos] at hfind
    · exact (some.inj hfind).symm
    · exact decide_eq_true ⟨decide_eq_true (hsplit ▸ hcounts), decide_eq_true hid⟩
    · intro a ha hcount
      simp only [decide_eq_true_eq] at hcount
      simpa [hcount.1.1, hcount.2] using hbefore a ha
  rw [hsame]
  exact ⟨singer, hsinger, hvalid⟩

theorem acksForParent_eq (hpool : pool.Reachable K) (parent : Header) (number : UInt64) :
    acksForParent K bc pool parent number = pool.counted K bc parent number := by
  have hfiled := hpool.filed (number - 1)
  exact takeAck_foldl_eq _ _ pool [] fun a ha b hb => (hfiled a ha).trans (hfiled b hb).symm

end AckPool

/-! ## 5. Producer and verifier

The verifier goes through the acks and keeps the signers it has met.  On acks of the right number
and type, and those of a producer are, `run_countAck_eq_some` says exactly when it comes to the end;
that the acks are those that count makes it a condition on the pool. -/

/-- The acks are signed by validators of block `number`, no two by the same one. -/
def SignedByDistinct (K : Crypto) (bc : Chain) (number : UInt64) (acks : List Ack) : Prop :=
  ∃ signers : List Address, acks.map (Ack.recoverOwner K) = signers.map some ∧ signers.Nodup ∧
    ∀ s ∈ signers, bc.checkIsValidator number s = true

variable {K : Crypto} {bc : Chain} {number : UInt64} {parent : Header} {ackType : AckType}

/-- One turn of the verifier's loop, for an ack of the right number and type. -/
theorem countAck_eq_some {t t' : AckTally} {ack : Ack} (hnum : ofNat ack.number = number - 1)
    (htype : ack.ackType = ackType) (hkind : ackType = ackTypeAgree ∨ ackType = ackTypeOppose) :
    countAck K bc number parent t ack = some t' ↔
      ∃ singer, ack.recoverOwner K = some singer ∧ singer ∉ t.used ∧
        bc.checkIsValidator number singer = true ∧
        (ackType = ackTypeAgree → ack.hash K ≠ parent.hash K) ∧
        t' = { used := singer :: t.used
               commitNum := t.commitNum + if ackType = ackTypeAgree then 1 else 0
               oppopsNum := t.oppopsNum + if ackType = ackTypeAgree then 0 else 1 } := by
  unfold countAck
  cases hs : ack.recoverOwner K with
  | none => simp
  | some singer =>
    by_cases hused : singer ∈ t.used
    · simp [hused]
    · cases hvalid : bc.checkIsValidator number singer with
      | false => simp [hused, hvalid]
      | true =>
        rcases hkind with hagree | hoppose
        · by_cases hhash : ack.hash K = parent.hash K
          · simp [hused, hvalid, hnum, htype, hagree, hhash]
          · simp [hused, hvalid, hnum, htype, hagree, hhash]
            exact eq_comm
        · have hne : ackTypeOppose ≠ ackTypeAgree := by decide
          simp [hused, hvalid, hnum, htype, hoppose, hne]
          exact eq_comm

/-- **The verifier's loop**, exactly. -/
theorem run_countAck_eq_some (hkind : ackType = ackTypeAgree ∨ ackType = ackTypeOppose)
    {acks : List Ack} (hnum : ∀ ack ∈ acks, ofNat ack.number = number - 1)
    (htype : ∀ ack ∈ acks, ack.ackType = ackType) : ∀ t t' : AckTally,
    Run.run (countAck K bc number parent) acks t = some t' ↔
      ∃ signers : List Address, acks.map (Ack.recoverOwner K) = signers.map some ∧ signers.Nodup ∧
        (∀ s ∈ signers, s ∉ t.used ∧ bc.checkIsValidator number s = true) ∧
        (ackType = ackTypeAgree → ∀ ack ∈ acks, ack.hash K ≠ parent.hash K) ∧
        t' = { used := signers.reverse ++ t.used
               commitNum := t.commitNum + if ackType = ackTypeAgree then acks.length else 0
               oppopsNum := t.oppopsNum + if ackType = ackTypeAgree then 0 else acks.length } := by
  induction acks with
  | nil =>
    intro t t'
    constructor
    · intro h
      cases h
      exact ⟨[], rfl, nodup_nil, by simp, by simp, by simp⟩
    · rintro ⟨signers, hmap, -, -, -, rfl⟩
      have hnil : signers = [] := by simpa using hmap.symm
      subst hnil
      simp [Run.run]
  | cons ack acks ih =>
    have ih := ih (fun a ha => hnum a (mem_cons_of_mem _ ha))
      (fun a ha => htype a (mem_cons_of_mem _ ha))
    intro t t'
    have hone := fun u => @countAck_eq_some K bc number parent ackType t u ack
      (hnum ack mem_cons_self) (htype ack mem_cons_self) hkind
    rw [Run.run, bind_eq_some_iff]
    constructor
    · rintro ⟨u, hu, hrun⟩
      obtain ⟨singer, hs, hfresh, hvalid, hhash, rfl⟩ := (hone u).mp hu
      obtain ⟨signers, hmap, hnodup, hall, hhashes, rfl⟩ := (ih _ _).mp hrun
      refine ⟨singer :: signers, by simp [hs, hmap], ?_, ?_, ?_, ?_⟩
      · exact nodup_cons.mpr ⟨fun hmem => (hall singer hmem).1 mem_cons_self, hnodup⟩
      · intro s hmem
        rcases mem_cons.mp hmem with rfl | hmem
        · exact ⟨hfresh, hvalid⟩
        · exact ⟨fun h => (hall s hmem).1 (mem_cons_of_mem _ h), (hall s hmem).2⟩
      · intro hagree a ha
        rcases mem_cons.mp ha with rfl | ha
        · exact hhash hagree
        · exact hhashes hagree a ha
      · by_cases hagree : ackType = ackTypeAgree
        · simp [hagree]; omega
        · simp [hagree]; omega
    · rintro ⟨signers, hmap, hnodup, hall, hhashes, rfl⟩
      cases signers with
      | nil => simp at hmap
      | cons singer signers =>
        simp only [map_cons, cons.injEq] at hmap
        obtain ⟨hfresh, hnodup⟩ := nodup_cons.mp hnodup
        refine ⟨_, (hone _).mpr ⟨singer, hmap.1, (hall singer mem_cons_self).1,
          (hall singer mem_cons_self).2, fun hagree => hhashes hagree _ mem_cons_self,
          rfl⟩, (ih _ _).mpr ⟨signers, hmap.2, hnodup, ?_, ?_, ?_⟩⟩
        · intro s hmem
          refine ⟨fun hused => ?_, (hall s (mem_cons_of_mem _ hmem)).2⟩
          rcases mem_cons.mp hused with rfl | hused
          · exact hfresh hmem
          · exact (hall s (mem_cons_of_mem _ hmem)).1 hused
        · exact fun hagree a ha => hhashes hagree a (mem_cons_of_mem _ ha)
        · by_cases hagree : ackType = ackTypeAgree
          · simp [hagree]; omega
          · simp [hagree]; omega

theorem checkAckNumMin_iff {ackNum validatorNum : Nat} :
    checkAckNumMin ackNum validatorNum = true ↔ validatorNum ≤ 1 ∨ validatorNum / 3 < ackNum := by
  unfold checkAckNumMin
  split
  next h =>
    simp [h]
  next h =>
    simp [h]

/-- **When producer and verifier agree on the acks.**  Of a block whose producer had enough acks,
the acks pass on a chain with the same parent exactly when the acks of the pool that count

* are signed by distinct validators of the block;
* are more than a third of these, unless there is only one validator;
* are for a parent that is not visual, or one of the same producer;
* and do not have the digest of the parent, which is what the verifier compares instead of the hash
  that they name.

The second is seen to by the settings if what they ask for is more than a third of the validators of
the block: it is if they are of the same round and do not halve the quorum.  As to the first, the
producer looks for validators of the parent's round, and only if an ack agrees. -/
theorem producer_acks_pass_iff {view : ChainView} {params : WitnessParams} {pool : AckPool}
    {header : Header} {block p : Block} (hpool : pool.Reachable K)
    (hcommit : commitAcks K view params pool header p.header = some block)
    (hparent : bc.getBlock (p.header.hash K) (ofNat header.number - 1) = some p) :
    let number := ofNat header.number
    let counted := pool.counted K view p.header number
    let validatorNum := (bc.getValidators number).length
    (checkAcks K bc block = some true ↔
      SignedByDistinct K bc number counted ∧
      (validatorNum ≤ 1 ∨ validatorNum / 3 < counted.length) ∧
      (p.header.isVisual = true → header.validatorAddr = p.header.validatorAddr) ∧
      (p.header.isVisual = false → ∀ ack ∈ counted, ack.hash K ≠ p.header.hash K)) ∧
    (1 < params.validatorWitnessCount → validatorNum / 3 < params.requiredAcks →
      validatorNum / 3 < counted.length) ∧
    (p.header.isVisual = false → view.getHeaderByNumber (number - 1) = some p.header →
      ∀ ack ∈ counted, pool.check ack.id = .uncheck → ∃ singer, ack.recoverOwner K = some singer ∧
        view.checkIsValidator (number - 1) singer = true) := by
  have hsigner := fun hreal hheader ack hack => @AckPool.signer_of_counted K view pool ack hpool
    p.header (ofNat header.number) hreal hheader hack
  have hmem (ack) (h : ack ∈ pool.counted K view p.header (ofNat header.number)) :
      ofNat ack.number = ofNat header.number - 1 ∧ ack.ackType = ackTypeFor p.header :=
    ⟨hpool.filed _ ack (AckPool.mem_counted h).1, (AckPool.mem_counted h).2.1⟩
  unfold commitAcks at hcommit
  dsimp only at hcommit ⊢
  rw [AckPool.acksForParent_eq hpool] at hcommit
  generalize pool.counted K view p.header (ofNat header.number) = acks at hcommit hmem hsigner ⊢
  split at hcommit
  · cases hcommit
  next henough =>
    cases hcommit
    refine ⟨?_, fun hcount hrequired => by omega, hsigner⟩
    have hkind : ackTypeFor p.header = ackTypeAgree ∨ ackTypeFor p.header = ackTypeOppose := by
      unfold ackTypeFor
      cases p.header.isVisual <;> simp
    have hrun := @run_countAck_eq_some K bc (ofNat header.number) p.header _ hkind acks
      (fun a ha => (hmem a ha).1) (fun a ha => (hmem a ha).2)
    have hagree : ackTypeFor p.header = ackTypeAgree ↔ p.header.isVisual = false := by
      unfold ackTypeFor
      cases p.header.isVisual <;> decide
    unfold checkAcks
    dsimp only
    rw [hparent]
    dsimp only
    cases hres : Run.run (countAck K bc (ofNat header.number) p.header) acks {} with
    | none =>
      refine iff_of_false (by simp) ?_
      rintro ⟨⟨signers, hmap, hnodup, hvalid⟩, -, -, hhash⟩
      have hsome := (hrun {} _).mpr ⟨signers, hmap, hnodup,
        fun s hs => ⟨not_mem_nil, hvalid s hs⟩, fun h => hhash (hagree.mp h), rfl⟩
      rw [hres] at hsome
      cases hsome
    | some t =>
      obtain ⟨signers, hmap, hnodup, hall, hhash, rfl⟩ := (hrun {} t).mp hres
      have hsigned : SignedByDistinct K bc (ofNat header.number) acks :=
        ⟨signers, hmap, hnodup, fun s hs => (hall s hs).2⟩
      unfold checkAckCount
      cases hv : p.header.isVisual with
      | false =>
        have htype := hagree.mpr hv
        simp [htype, hsigned, checkAckNumMin_iff]
        exact fun _ => hhash htype
      | true =>
        have htype : ackTypeFor p.header ≠ ackTypeAgree := fun h => by
          rw [hagree.mp h] at hv
          cases hv
        simp [htype, hsigned, checkAckNumMin_iff, and_comm]

/-- The two validators again, as a node sees them that has the block of height four. -/
def twoValidatorsView (parent : Header) : ChainView where
  getValidators := twoValidators.getValidators
  getBlock := fun _ _ => some { header := parent, acks := [] }
  currentNumber := 4
  getHeaderByNumber := fun _ => some parent

/-- A block of height four that is not visual, and one that is. -/
def ackedParent (extra : Bytes) : Header := { number := 4, extra := extra }

/-- An ack for the parent, with a signature that spells out the key `key`. -/
def ackFor (parent : Header) (ackType : AckType) (key : UInt8) : Ack :=
  { number := 4, blockHash := parent.hash plainCrypto, ackType := ackType,
    witnessSig := replicate 64 0 ++ [key] }

/-- A pool that has received it. -/
def poolWithAck (parent : Header) (ackType : AckType) (key : UInt8) : AckPool :=
  AckPool.handleAck plainCrypto (twoValidatorsView parent) {} (ackFor parent ackType key)

theorem poolWithAck_reachable (parent : Header) (ackType : AckType) (key : UInt8) :
    (poolWithAck parent ackType key).Reachable plainCrypto :=
  ⟨[.handle (twoValidatorsView parent) (ackFor parent ackType key)], rfl⟩

/-- An agreeing ack by validator `1` is enough for both. -/
theorem producer_acks_pass : ∃ block,
    commitAcks plainCrypto (twoValidatorsView (ackedParent [0])) ⟨2, false⟩
      (poolWithAck (ackedParent [0]) ackTypeAgree 1) { number := 5 } (ackedParent [0]) =
        some block ∧
    checkAcks plainCrypto (twoValidatorsView (ackedParent [0])).toChain block = some true := by
  have hcounted : (poolWithAck (ackedParent [0]) ackTypeAgree 1).counted plainCrypto
      (twoValidatorsView (ackedParent [0])) (ackedParent [0]) 5 =
        [ackFor (ackedParent [0]) ackTypeAgree 1] := by decide +kernel
  obtain ⟨block, hblock⟩ := isSome_iff_exists.mp (show (commitAcks plainCrypto
    (twoValidatorsView (ackedParent [0])) ⟨2, false⟩ (poolWithAck (ackedParent [0]) ackTypeAgree 1)
    { number := 5 } (ackedParent [0])).isSome by decide +kernel)
  have hiff := (@producer_acks_pass_iff plainCrypto (twoValidatorsView (ackedParent [0])).toChain
    (twoValidatorsView (ackedParent [0])) ⟨2, false⟩ _ { number := 5 } block
    { header := ackedParent [0], acks := [] } (poolWithAck_reachable _ _ _) hblock rfl).1
  dsimp only at hiff
  rw [show ofNat 5 = 5 from rfl, hcounted] at hiff
  refine ⟨block, hblock, hiff.mpr ⟨⟨[1], ?_, nodup_singleton _, ?_⟩, .inr (by decide), ?_, ?_⟩⟩
  · decide +kernel
  · intro s hs
    rw [mem_singleton.mp hs]
    decide +kernel
  · intro hvisual
    exact absurd hvisual (by decide +kernel)
  · intro _ ack hack
    rw [mem_singleton.mp hack]
    decide +kernel

/-- An opposing ack by no validator is enough for the producer of a block on a visual one, and the
block is rejected. -/
theorem producer_takes_stranger : ∃ block,
    commitAcks plainCrypto (twoValidatorsView (ackedParent Header.visualBlockExtra)) ⟨2, false⟩
      (poolWithAck (ackedParent Header.visualBlockExtra) ackTypeOppose 3) { number := 5 }
      (ackedParent Header.visualBlockExtra) = some block ∧
    (poolWithAck (ackedParent Header.visualBlockExtra) ackTypeOppose 3).Reachable plainCrypto ∧
    checkAcks plainCrypto (twoValidatorsView (ackedParent Header.visualBlockExtra)).toChain block =
      some false := by
  have hrejected : (commitAcks plainCrypto (twoValidatorsView (ackedParent Header.visualBlockExtra))
      ⟨2, false⟩ (poolWithAck (ackedParent Header.visualBlockExtra) ackTypeOppose 3) { number := 5 }
      (ackedParent Header.visualBlockExtra)).map
        (checkAcks plainCrypto (twoValidatorsView (ackedParent Header.visualBlockExtra)).toChain) =
      some (some false) := by decide +kernel
  obtain ⟨block, hblock, hcheck⟩ := map_eq_some_iff.mp hrejected
  exact ⟨block, hblock, poolWithAck_reachable _ _ _, hcheck⟩

end ProbeChain
