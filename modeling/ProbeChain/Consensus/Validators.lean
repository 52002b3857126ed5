/-
# Who the validators are

`GetValidators`, `GetNextValidators`, `updateP2pValidatorNodes` and, as far as these depend on it,
`writeBlockWithState` of `core/blockchain.go`, with the confirm points of `common/types.go`.

The validators of a number are the candidates in the state of the last confirm point before it.
They are not read from there: they are written to the database, under the number of the ROUND, when
a block is imported on top of the confirm point, and kept in memory by confirm point from the first
question on.  A question that comes too early is answered with the list of an earlier round, and
that answer stays; a reorganisation changes neither place.  `getValidators_eq` says what the answers
are good for: on a node that has not been asked too early, and whose chain has neither jumped over a
confirm point nor replaced one, they are the lists of the chain.

Block numbers do not wrap around here.
-/
import ProbeChain.State.Account
import ProbeChain.Consensus.Acks

namespace ProbeChain

open List Function

/-! ## 1. Confirm points -/

/-- How many blocks before the end of an epoch its confirm point is. -/
def confirmBlockNum (dPosEpoch : Nat) : Nat :=
  if dPosNodeIntervalConfirmPoint.toNat < dPosEpoch then dPosNodeIntervalConfirmPoint.toNat
  else dPosEpoch / 2

def validatorRoundId (blockNumber dPosEpoch : Nat) : Nat :=
  if blockNumber = 0 then blockNumber
  else
    let factor := blockNumber + confirmBlockNum dPosEpoch + dPosEpoch - 1
    (factor - factor % dPosEpoch) / dPosEpoch

/-- Where nothing wraps around this is what the contracts compute. -/
theorem calcValidatorRoundId_eq {blockNumber dPosEpoch : UInt64} (hepoch : dPosEpoch ≠ 0)
    (h : blockNumber.toNat + 2 * dPosEpoch.toNat < 2 ^ 64) :
    (calcValidatorRoundId blockNumber dPosEpoch).map UInt64.toNat =
      some (validatorRoundId blockNumber.toNat dPosEpoch.toNat) := by
  -- the blocks after the confirm point are as many on either side
  have hconfirm : (if dPosEpoch > dPosNodeIntervalConfirmPoint then dPosNodeIntervalConfirmPoint
      else dPosEpoch / 2).toNat = confirmBlockNum dPosEpoch.toNat := by
    simp only [confirmBlockNum, gt_iff_lt, UInt64.lt_iff_toNat_lt]
    split <;> rfl
  have hle : confirmBlockNum dPosEpoch.toNat ≤ dPosEpoch.toNat := by
    unfold confirmBlockNum
    split <;> omega
  unfold calcValidatorRoundId validatorRoundId
  by_cases hzero : blockNumber = 0
  · simp [hzero]
  · have hzero' : blockNumber.toNat ≠ 0 := fun h' => hzero (UInt64.toNat.inj h')
    rw [if_neg hzero, if_neg hepoch, if_neg hzero']
    rw [← hconfirm] at hle ⊢
    generalize (if dPosEpoch > _ then _ else _ : UInt64) = c at hle ⊢
    have hfactor : (blockNumber + c + dPosEpoch - 1).toNat =
        blockNumber.toNat + c.toNat + dPosEpoch.toNat - 1 := by
      rw [UInt64.toNat_sub, UInt64.toNat_add, UInt64.toNat_add, UInt64.toNat_one]
      omega
    rw [Option.map_some, UInt64.toNat_div, UInt64.toNat_sub_of_le _ _ ?_, UInt64.toNat_mod, hfactor]
    exact Nat.mod_le _ _

def isConfirmPoint (blockNumber dPosEpoch : Nat) : Bool :=
  blockNumber % ((blockNumber / dPosEpoch + 1) * dPosEpoch - confirmBlockNum dPosEpoch) = 0

def getLastConfirmPoint (blockNumber dPosEpoch : Nat) : Nat :=
  if blockNumber ≤ dPosEpoch then 0
  else (blockNumber - 1) / dPosEpoch * dPosEpoch - confirmBlockNum dPosEpoch

def getCurrentConfirmPoint (blockNumber dPosEpoch : Nat) : Nat :=
  let lastConfirmPoint := getLastConfirmPoint blockNumber dPosEpoch
  if lastConfirmPoint = 0 then dPosEpoch - confirmBlockNum dPosEpoch
  else lastConfirmPoint + dPosEpoch

/-! ## 2. A node -/

/-- The validator lists in the states of the canonical blocks, genesis first; the lists in the
database by round; and those in memory by confirm point.  Where there is no list it is empty. -/
structure Node where
  chain : List ValidatorListAccount
  dpos : Nat → List Validator
  validators : Nat → List Validator := fun _ => []

namespace Node

variable (epoch : Nat) (node : Node)

/-- The number of `CurrentBlock`. -/
def head : Nat := node.chain.length - 1

/-- The list of a round, or of the last round before it that has one. -/
def latestList (lists : Nat → List Validator) : Nat → List Validator
  | 0 => lists 0
  | roundId + 1 => if lists (roundId + 1) = [] then latestList lists roundId
      else lists (roundId + 1)

def getValidators (number : Nat) : Node × List Validator :=
  if epoch = 0 then (node, []) else
  let confirmPointNumber := getLastConfirmPoint number epoch
  if node.validators confirmPointNumber ≠ [] then (node, node.validators confirmPointNumber)
  else
    let accounts := latestList node.dpos (validatorRoundId confirmPointNumber epoch)
    if accounts ≠ [] then
      ({ node with validators := update node.validators confirmPointNumber accounts }, accounts)
    else (node, accounts)

/-- `GetPresetDPosAccounts` of the candidates, if the list is that of the round. -/
def candidatesOf (account : ValidatorListAccount) (roundId : Nat) : List Validator :=
  if UInt64.ofNat roundId = account.roundId then
    account.validatorCandidates.map fun c => { enode := c.enode, owner := c.owner }
  else []

def getNextValidators (number : Nat) : List Validator × Nat :=
  let confirmPointNumber := getCurrentConfirmPoint number epoch
  if confirmPointNumber = number then
    match node.chain[confirmPointNumber]? with
    | some account =>
      let roundId := validatorRoundId confirmPointNumber epoch
      (candidatesOf account roundId, roundId)
    | none => ([], 0)
  else ([], 0)

/-- The first part of `updateP2pValidatorNodes`: at a confirm point the next list is recorded. -/
def recordNext (number : Nat) : Node :=
  if isConfirmPoint number epoch then
    let node := (node.getValidators epoch number).1
    let next := node.getNextValidators epoch number
    if next.1 ≠ [] then { node with dpos := update node.dpos next.2 next.1 } else node
  else node

/-- The whole of it: the node afterwards, and the peers that are removed at the end of an epoch.
`parses` tells the names that are those of a node. -/
def updatePeers (parses : ValidatorEnode → Bool) : Node × List Validator :=
  let number := node.head
  if 0 < number then
    let node := node.recordNext epoch number
    if number % epoch = 0 then
      let cur := node.getValidators epoch number
      let pre := cur.1.getValidators epoch (number - confirmBlockNum epoch)
      (pre.1, pre.2.filter fun da1 => cur.2.all (·.owner ≠ da1.owner) ∧ parses da1.enode)
    else (node, [])
  else (node, [])

def updateP2pValidatorNodes : Node := (node.updatePeers epoch fun _ => true).1

/-- A block is written, or someone asks for validators.  `chain` is the canonical chain once the
block is written: longer by the block, reorganised, or as it was. -/
inductive Event where
  | importBlock (chain : List ValidatorListAccount)
  | query (number : Nat)

/-- The nodes are updated before the new block becomes the head. -/
def step : Event → Option Node
  | .importBlock chain => some { node.updateP2pValidatorNodes epoch with chain := chain }
  | .query number => some (node.getValidators epoch number).1

/-- A node that has its genesis block, and the list that comes with it. -/
def genesis (account : ValidatorListAccount) (accounts : List Validator) : Node :=
  { chain := [account], dpos := fun roundId => if roundId = 0 then accounts else [] }

end Node

/-! ## 3. The arithmetic of confirm points -/

/-- The confirm point of round `k`. -/
def confirmPoint (epoch k : Nat) : Nat := k * epoch - confirmBlockNum epoch

section
variable {epoch : Nat} {k : Nat}

theorem confirmBlockNum_eq : confirmBlockNum epoch = if 64 < epoch then 64 else epoch / 2 := rfl

theorem confirmPoint_zero : confirmPoint epoch 0 = 0 := by
  rw [confirmPoint, Nat.zero_mul, Nat.zero_sub]

variable (hepoch : 2 ≤ epoch)
include hepoch

theorem confirmBlockNum_bounds : 1 ≤ confirmBlockNum epoch ∧ confirmBlockNum epoch < epoch := by
  rw [confirmBlockNum_eq]
  split <;> omega

theorem confirmPoint_succ (hk : 1 ≤ k) :
    confirmPoint epoch (k + 1) = confirmPoint epoch k + epoch := by
  have hbounds := confirmBlockNum_bounds hepoch
  have hle : 1 * epoch ≤ k * epoch := Nat.mul_le_mul_right epoch hk
  unfold confirmPoint
  rw [Nat.succ_mul]
  omega

theorem confirmPoint_strictMono : StrictMono (confirmPoint epoch) := by
  refine strictMono_nat_of_lt_succ fun k => ?_
  have hbounds := confirmBlockNum_bounds hepoch
  unfold confirmPoint
  rw [Nat.succ_mul]
  omega

theorem confirmPoint_pos (hk : 1 ≤ k) : 0 < confirmPoint epoch k :=
  confirmPoint_zero ▸ confirmPoint_strictMono hepoch hk

/-- A confirm point belongs to its round. -/
theorem validatorRoundId_confirmPoint (k : Nat) :
    validatorRoundId (confirmPoint epoch k) epoch = k := by
  rcases Nat.eq_zero_or_pos k with rfl | hk
  · rw [confirmPoint_zero]
    rfl
  · have hbounds := confirmBlockNum_bounds hepoch
    have hpos := confirmPoint_pos hepoch hk
    unfold validatorRoundId
    rw [if_neg (by omega)]
    have hfactor : confirmPoint epoch k + confirmBlockNum epoch + epoch - 1 =
        (epoch - 1) + k * epoch := by
      unfold confirmPoint at hpos ⊢
      omega
    have hmod : (epoch - 1 + k * epoch) % epoch = epoch - 1 := by
      rw [Nat.add_mul_mod_self_right, Nat.mod_eq_of_lt (by omega)]
    dsimp only
    rw [hfactor, hmod, Nat.add_sub_cancel_left, Nat.mul_div_cancel _ (by omega)]

/-- The epoch that ends after the confirm point. -/
theorem div_of_near {d : Nat} (hk : 1 ≤ k) (hd : 1 ≤ d) (hd' : d ≤ epoch) :
    (k * epoch - d) / epoch = k - 1 := by
  obtain ⟨j, rfl⟩ : ∃ j, k = j + 1 := ⟨k - 1, by omega⟩
  have hsplit : (j + 1) * epoch - d = (epoch - d) + j * epoch := by
    rw [Nat.succ_mul]
    omega
  rw [hsplit, Nat.add_mul_div_right _ _ (by omega), Nat.div_eq_of_lt (by omega)]
  omega

theorem isConfirmPoint_confirmPoint (hk : 1 ≤ k) :
    isConfirmPoint (confirmPoint epoch k) epoch = true := by
  have hbounds := confirmBlockNum_bounds hepoch
  have hdiv : confirmPoint epoch k / epoch = k - 1 :=
    div_of_near hepoch hk hbounds.1 (by omega)
  unfold isConfirmPoint
  rw [hdiv, Nat.sub_add_cancel hk, decide_eq_true_eq]
  exact Nat.mod_self _

/-- The last confirm point is that of the epoch before. -/
theorem getLastConfirmPoint_eq (n : Nat) :
    getLastConfirmPoint n epoch = confirmPoint epoch ((n - 1) / epoch) := by
  unfold getLastConfirmPoint confirmPoint
  split
  next hn =>
    rw [Nat.div_eq_of_lt (by omega), Nat.zero_mul, Nat.zero_sub]
  next => rfl

/-- And the current one is that of the epoch that ends with the number or after it. -/
theorem getCurrentConfirmPoint_eq (n : Nat) :
    getCurrentConfirmPoint n epoch = confirmPoint epoch ((n - 1) / epoch + 1) := by
  unfold getCurrentConfirmPoint
  rw [getLastConfirmPoint_eq hepoch]
  rcases Nat.eq_zero_or_pos ((n - 1) / epoch) with hzero | hk
  · rw [hzero]
    simp [confirmPoint]
  · rw [if_neg (confirmPoint_pos hepoch hk).ne', confirmPoint_succ hepoch hk]

/-- The last confirm point lies before the number. -/
theorem getLastConfirmPoint_lt {n : Nat} (h : getLastConfirmPoint n epoch ≠ 0) :
    getLastConfirmPoint n epoch < n := by
  have hle := Nat.div_mul_le_self (n - 1) epoch
  rw [getLastConfirmPoint_eq hepoch] at h ⊢
  unfold confirmPoint at h ⊢
  omega

theorem confirmPoint_pred_div (hk : 1 ≤ k) : (confirmPoint epoch k - 1) / epoch = k - 1 := by
  have hbounds := confirmBlockNum_bounds hepoch
  unfold confirmPoint
  rw [Nat.sub_sub, div_of_near hepoch hk (by omega) (by omega)]

theorem getCurrentConfirmPoint_confirmPoint (hk : 1 ≤ k) :
    getCurrentConfirmPoint (confirmPoint epoch k) epoch = confirmPoint epoch k := by
  rw [getCurrentConfirmPoint_eq hepoch, confirmPoint_pred_div hepoch hk, Nat.sub_add_cancel hk]

/-- What the test lets pass is a confirm point, unless the distance from the beginning of an epoch
to its confirm point is less than half the epoch. -/
theorem eq_confirmPoint_of_isConfirmPoint (hlead : epoch ≤ 64 ∨ 128 ≤ epoch) {n : Nat}
    (hn : 1 ≤ n) (h : isConfirmPoint n epoch = true) : n = confirmPoint epoch (n / epoch + 1) := by
  obtain ⟨j, hj⟩ := Nat.dvd_of_mod_eq_zero (of_decide_eq_true h)
  have hless : n < (n / epoch + 1) * epoch := Nat.lt_mul_of_div_lt (Nat.lt_succ_self _) (by omega)
  have hwhole : 1 * epoch ≤ (n / epoch + 1) * epoch :=
    Nat.mul_le_mul_right epoch (Nat.le_add_left 1 _)
  have htwice : 2 * confirmBlockNum epoch ≤ epoch := by
    rw [confirmBlockNum_eq]
    split <;> omega
  unfold confirmPoint
  match j with
  | 0 => omega
  | 1 => omega
  | j + 2 =>
    have hmul : ((n / epoch + 1) * epoch - confirmBlockNum epoch) * 2 ≤ n := by
      rw [hj]
      exact Nat.mul_le_mul (by rw [← hj]) (Nat.le_add_left 2 j)
    omega

end

/-- **When the confirm points are consistent.**  The test for a confirm point agrees with the
current one, there is one in every epoch, and the last one belongs to the epoch before, if and only
if an epoch has at most 64 blocks or at least 128. -/
theorem confirmPoints_consistent_iff {epoch : Nat} (hepoch : 2 ≤ epoch) :
    ((∀ n, 1 ≤ n → (isConfirmPoint n epoch = true ↔ getCurrentConfirmPoint n epoch = n) ∧
        validatorRoundId (getLastConfirmPoint n epoch) epoch = (n - 1) / epoch) ∧
      ∀ k, ∃! n, (k * epoch < n ∧ n ≤ (k + 1) * epoch) ∧ isConfirmPoint n epoch = true) ↔
    epoch ≤ 64 ∨ 128 ≤ epoch := by
  have hbounds := confirmBlockNum_bounds hepoch
  constructor
  · -- in the first epoch twice the confirm point passes, too
    rintro ⟨hsame, -⟩
    by_contra hlead
    have hfirst : confirmBlockNum epoch = 64 := if_pos (show 64 < epoch by omega)
    have hdiv : ((epoch - 64) * 2 - 1) / epoch = 0 := Nat.div_eq_of_lt (by omega)
    have hpasses : isConfirmPoint ((epoch - 64) * 2) epoch = true := by
      unfold isConfirmPoint
      rw [Nat.div_eq_of_lt (by omega), hfirst, Nat.zero_add, Nat.one_mul, Nat.mul_mod_right]
      rfl
    have hcurrent := (hsame _ (by omega)).1.mp hpasses
    rw [getCurrentConfirmPoint_eq hepoch, hdiv, confirmPoint, hfirst] at hcurrent
    omega
  · intro hlead
    have htest : ∀ n, 1 ≤ n →
        (isConfirmPoint n epoch = true ↔ getCurrentConfirmPoint n epoch = n) := by
      intro n hn
      constructor
      · intro h
        rw [eq_confirmPoint_of_isConfirmPoint hepoch hlead hn h]
        exact getCurrentConfirmPoint_confirmPoint hepoch (Nat.le_add_left 1 _)
      · intro h
        rw [← h, getCurrentConfirmPoint_eq hepoch]
        exact isConfirmPoint_confirmPoint hepoch (Nat.le_add_left 1 _)
    refine ⟨fun n hn => ⟨htest n hn, ?_⟩, fun k => ⟨confirmPoint epoch (k + 1), ⟨?_, ?_⟩, ?_⟩⟩
    · rw [getLastConfirmPoint_eq hepoch]
      exact validatorRoundId_confirmPoint hepoch _
    · unfold confirmPoint
      rw [Nat.succ_mul]
      omega
    · exact isConfirmPoint_confirmPoint hepoch (Nat.le_add_left 1 k)
    · rintro n ⟨⟨hless, hle⟩, h⟩
      have hk : (n - 1) / epoch = k := Nat.div_eq_of_lt_le (by omega) (by omega)
      rw [← (htest n (by omega)).mp h, getCurrentConfirmPoint_eq hepoch, hk]

theorem confirmPoints_consistent_four : ∃! n, (2 * 4 < n ∧ n ≤ (2 + 1) * 4) ∧
    isConfirmPoint n 4 = true :=
  ((confirmPoints_consistent_iff (by decide)).mpr (.inl (by decide))).2 2

/-- With epochs of 65 blocks each of the first 64 blocks passes the test, and only the first is a
confirm point. -/
theorem confirmPoints_sixtyFive :
    (∀ n < 65, isConfirmPoint n 65 = true) ∧ getCurrentConfirmPoint 2 65 = 1 := by
  decide

/-! ## 4. What the lists should be -/

namespace Node

/-- The list of round `k` on a chain: the candidates in the state of its confirm point, and for the
first round the list that came with the genesis block. -/
def confirmedList (epoch : Nat) (first : List Validator) (chain : List ValidatorListAccount)
    (k : Nat) : List Validator :=
  if k = 0 then first
  else (chain[confirmPoint epoch k]?).elim [] (candidatesOf · k)

/-- The validators of a number on a chain. -/
def canonicalValidators (epoch : Nat) (first : List Validator) (chain : List ValidatorListAccount)
    (number : Nat) : List Validator :=
  latestList (confirmedList epoch first chain)
    (validatorRoundId (getLastConfirmPoint number epoch) epoch)

/-- The chain has gone past the last confirm point of the number. -/
def Passed (epoch : Nat) (node : Node) (number : Nat) : Prop :=
  getLastConfirmPoint number epoch = 0 ∨ getLastConfirmPoint number epoch < node.head

/-- Every confirm point that the chain has reached, or will have been past, is on both chains. -/
def KeepsConfirmPoints (epoch : Nat) (node : Node) (chain : List ValidatorListAccount) : Prop :=
  ∀ k, 1 ≤ k → (confirmPoint epoch k ≤ node.head ∨ confirmPoint epoch k < chain.length - 1) →
    confirmPoint epoch k ≤ node.head ∧
      chain[confirmPoint epoch k]? = node.chain[confirmPoint epoch k]?

/-- A step that the lists survive: no question before its time, and no confirm point jumped over or
replaced. -/
def Safe (epoch : Nat) (node : Node) : Event → Prop
  | .importBlock chain => chain ≠ [] ∧ node.KeepsConfirmPoints epoch chain
  | .query number => node.Passed epoch number

theorem latestList_congr {f g : Nat → List Validator} {k : Nat} (h : ∀ j ≤ k, f j = g j) :
    latestList f k = latestList g k := by
  induction k with
  | zero => exact h 0 (le_refl _)
  | succ k ih =>
    unfold latestList
    rw [h (k + 1) (le_refl _), ih fun j hj => h j (Nat.le_succ_of_le hj)]

/-! ## 5. The invariant -/

/-- **Database and memory agree with the chain.**  Confirm points that are passed have their list in
the database, those ahead have none, and what is in memory is right. -/
structure Sound (epoch : Nat) (first : List Validator) (node : Node) : Prop where
  nonempty : node.chain ≠ []
  genesis : node.dpos 0 = first
  passed : ∀ k, 1 ≤ k → confirmPoint epoch k < node.head →
    node.dpos k = confirmedList epoch first node.chain k
  reached : ∀ k, 1 ≤ k → confirmPoint epoch k = node.head →
    node.dpos k = [] ∨ node.dpos k = confirmedList epoch first node.chain k
  ahead : ∀ k, 1 ≤ k → node.head < confirmPoint epoch k → node.dpos k = []
  memory : ∀ point, node.validators point ≠ [] →
    (point = 0 ∧ node.validators point = first) ∨
    ∃ k, 1 ≤ k ∧ point = confirmPoint epoch k ∧ confirmPoint epoch k ≤ node.head ∧
      node.validators point = latestList (confirmedList epoch first node.chain) k

/-- The confirm point that is the head, if the head is one, has its list in the database. -/
def Recorded (epoch : Nat) (first : List Validator) (node : Node) : Prop :=
  ∀ k, 1 ≤ k → confirmPoint epoch k = node.head →
    node.dpos k = confirmedList epoch first node.chain k

section
variable {epoch : Nat} {first : List Validator} {node : Node} {number k : Nat}

/-- A chain that keeps the confirm points has the lists that there were. -/
theorem KeepsConfirmPoints.confirmedList {chain : List ValidatorListAccount}
    (hkeeps : node.KeepsConfirmPoints epoch chain)
    (hk : confirmPoint epoch k ≤ node.head ∨ confirmPoint epoch k < chain.length - 1) :
    confirmedList epoch first chain k = confirmedList epoch first node.chain k := by
  unfold Node.confirmedList
  rcases Nat.eq_zero_or_pos k with rfl | hpos
  · rfl
  · rw [(hkeeps k hpos hk).2]

/-- A confirm point that was reached is still reached. -/
theorem KeepsConfirmPoints.le_head {chain : List ValidatorListAccount}
    (hkeeps : node.KeepsConfirmPoints epoch chain) (hnonempty : node.chain ≠ [])
    (hk : 1 ≤ k) (hle : confirmPoint epoch k ≤ node.head) :
    confirmPoint epoch k ≤ chain.length - 1 := by
  have hlength : 0 < node.chain.length := List.length_pos_iff.mpr hnonempty
  have hold : confirmPoint epoch k < node.chain.length := by
    unfold head at hle
    omega
  have hsame := (hkeeps k hk (.inl hle)).2
  rw [getElem?_eq_getElem hold] at hsame
  have hnew := (List.getElem?_eq_some_iff.mp hsame).1
  omega

variable (hepoch : 2 ≤ epoch)
include hepoch

/-- What the database has of the rounds that are passed is what the chain has. -/
theorem Sound.latestList_dpos (h : node.Sound epoch first)
    (hpassed : k = 0 ∨ confirmPoint epoch k < node.head) :
    latestList node.dpos k = latestList (confirmedList epoch first node.chain) k := by
  refine latestList_congr fun j hj => ?_
  rcases Nat.eq_zero_or_pos j with rfl | hpos
  · rw [h.genesis]
    rfl
  · have hle := (confirmPoint_strictMono hepoch).monotone hj
    exact h.passed j hpos (hle.trans_lt (hpassed.resolve_left (by omega)))

/-- **A timely question is answered from the chain**, and the node stays sound. -/
theorem Sound.getValidators (h : node.Sound epoch first) (hpassed : node.Passed epoch number) :
    (node.getValidators epoch number).2 = canonicalValidators epoch first node.chain number ∧
      (node.getValidators epoch number).1.Sound epoch first ∧
      (node.getValidators epoch number).1.chain = node.chain ∧
      (node.getValidators epoch number).1.dpos = node.dpos := by
  unfold Passed at hpassed
  unfold Node.getValidators canonicalValidators
  rw [getLastConfirmPoint_eq hepoch] at *
  generalize (number - 1) / epoch = k at hpassed ⊢
  have hinj := (confirmPoint_strictMono hepoch).injective
  have hk : k = 0 ∨ confirmPoint epoch k < node.head :=
    hpassed.imp_left fun hzero => hinj (hzero.trans confirmPoint_zero.symm)
  have hread := h.latestList_dpos hepoch hk
  rw [if_neg (by omega)]
  by_cases hmem : node.validators (confirmPoint epoch k) ≠ []
  · simp only [if_pos hmem]
    refine ⟨?_, h, trivial, trivial⟩
    rcases h.memory _ hmem with ⟨hzero, heq⟩ | ⟨j, -, hpoint, -, heq⟩
    · rw [heq, hzero]
      rfl
    · rw [heq, hpoint, validatorRoundId_confirmPoint hepoch]
  · simp only [if_neg hmem, validatorRoundId_confirmPoint hepoch]
    split
    · refine ⟨hread, ?_, rfl, rfl⟩
      refine ⟨h.nonempty, h.genesis, h.passed, h.reached, h.ahead, fun point hpoint => ?_⟩
      dsimp only at hpoint ⊢
      by_cases heq : point = confirmPoint epoch k
      · rw [heq, update_self, hread]
        rcases Nat.eq_zero_or_pos k with rfl | hpos
        · exact .inl ⟨confirmPoint_zero, rfl⟩
        · exact .inr ⟨k, hpos, rfl, le_of_lt (hk.resolve_left hpos.ne'), rfl⟩
      · rw [update_of_ne heq] at hpoint ⊢
        exact h.memory point hpoint
    · exact ⟨hread, h, rfl, rfl⟩

/-- Questions about the past come in time. -/
theorem passed_of_le (h : number ≤ node.head) : node.Passed epoch number :=
  (em _).imp_right fun hne => (getLastConfirmPoint_lt hepoch hne).trans_le h

theorem Sound.getNextValidators (h : node.Sound epoch first)
    (hk : 1 ≤ k) (hhead : confirmPoint epoch k = node.head) :
    node.getNextValidators epoch node.head = (confirmedList epoch first node.chain k, k) := by
  have hlength : 0 < node.chain.length := length_pos_iff.mpr h.nonempty
  have hlt : node.head < node.chain.length := by
    unfold head
    omega
  unfold Node.getNextValidators confirmedList
  rw [← hhead] at hlt ⊢
  rw [getCurrentConfirmPoint_confirmPoint hepoch hk]
  dsimp only
  rw [validatorRoundId_confirmPoint hepoch, if_pos rfl, if_neg (by omega),
    getElem?_eq_getElem hlt]
  rfl

theorem getNextValidators_of_ne (hne : ∀ k, 1 ≤ k → confirmPoint epoch k ≠ node.head) :
    node.getNextValidators epoch node.head = ([], 0) := by
  unfold getNextValidators
  rw [getCurrentConfirmPoint_eq hepoch, if_neg (hne _ (Nat.le_add_left 1 _))]

section
variable (h : node.Sound epoch first)
include h

/-- Writing the list of the head, where there is one. -/
theorem Sound.record :
    let next := node.getNextValidators epoch node.head
    let recorded := if next.1 ≠ [] then { node with dpos := update node.dpos next.2 next.1 }
      else node
    recorded.Sound epoch first ∧ recorded.Recorded epoch first ∧ recorded.chain = node.chain := by
  by_cases hpoint : ∃ k, 1 ≤ k ∧ confirmPoint epoch k = node.head
  · obtain ⟨k, hk, hhead⟩ := hpoint
    have honly : ∀ {j}, 1 ≤ j → confirmPoint epoch j = node.head → j = k := fun _ heq =>
      (confirmPoint_strictMono hepoch).injective (heq.trans hhead.symm)
    rw [h.getNextValidators hepoch hk hhead]
    dsimp only
    by_cases hempty : confirmedList epoch first node.chain k = []
    · rw [if_neg (not_not.mpr hempty)]
      refine ⟨h, fun j hj heq => ?_, rfl⟩
      obtain rfl := honly hj heq
      rcases h.reached j hj heq with hnil | hlist
      · rw [hnil, hempty]
      · exact hlist
    · rw [if_pos hempty]
      refine ⟨⟨h.nonempty, ?_, fun j hj hlt => ?_, fun j hj heq => ?_,
        fun j hj hlt => ?_, h.memory⟩,
        fun j hj heq => ?_, rfl⟩
      · exact (update_of_ne (by omega) _ _).trans h.genesis
      · refine (update_of_ne ?_ _ _).trans (h.passed j hj hlt)
        rintro rfl
        exact absurd hlt (by unfold head at hhead ⊢; dsimp only; omega)
      · obtain rfl := honly hj heq
        exact .inr (update_self _ _ _)
      · refine (update_of_ne ?_ _ _).trans (h.ahead j hj hlt)
        rintro rfl
        exact absurd hlt (by unfold head at hhead ⊢; dsimp only; omega)
      · obtain rfl := honly hj heq
        exact update_self _ _ _
  · have hne : ∀ k, 1 ≤ k → confirmPoint epoch k ≠ node.head := fun k hk heq =>
      hpoint ⟨k, hk, heq⟩
    dsimp only
    rw [getNextValidators_of_ne hepoch hne, if_neg (not_not.mpr rfl)]
    exact ⟨h, fun k hk heq => absurd heq (hne k hk), rfl⟩

/-- Asking, where the chain has got to, keeps what is recorded. -/
theorem Sound.ask (hle : number ≤ node.head) :
    (node.getValidators epoch number).1.Sound epoch first ∧
      (node.getValidators epoch number).1.head = node.head ∧
      (node.getValidators epoch number).1.chain = node.chain ∧
      (node.Recorded epoch first → (node.getValidators epoch number).1.Recorded epoch first) := by
  obtain ⟨-, hsound, hchain, hdpos⟩ := h.getValidators hepoch (passed_of_le hepoch hle)
  have hhead : (node.getValidators epoch number).1.head = node.head := by
    unfold head
    rw [hchain]
  refine ⟨hsound, hhead, hchain, fun hrecorded k hk heq => ?_⟩
  rw [hhead] at heq
  rw [hchain, hdpos, hrecorded k hk heq]

/-- **The update keeps a node sound and records the head.** -/
theorem Sound.updateP2pValidatorNodes :
    (node.updateP2pValidatorNodes epoch).Sound epoch first ∧
      (node.updateP2pValidatorNodes epoch).Recorded epoch first ∧
      (node.updateP2pValidatorNodes epoch).chain = node.chain := by
  unfold Node.updateP2pValidatorNodes updatePeers
  by_cases hpos : 0 < node.head
  · -- after the first part the head is recorded: it is a confirm point only if the test says so
    have hfirst : (node.recordNext epoch node.head).Sound epoch first ∧
        (node.recordNext epoch node.head).Recorded epoch first ∧
        (node.recordNext epoch node.head).chain = node.chain := by
      unfold recordNext
      split
      · obtain ⟨hsound, hhead, hchain, -⟩ := h.ask hepoch (le_refl node.head)
        obtain ⟨hrecord, hrecorded, hsame⟩ := hsound.record hepoch
        rw [hhead] at hrecord hrecorded hsame
        exact ⟨hrecord, hrecorded, hsame.trans hchain⟩
      next htest =>
        refine ⟨h, fun k hk heq => absurd ?_ htest, rfl⟩
        rw [← heq]
        exact isConfirmPoint_confirmPoint hepoch hk
    obtain ⟨hsound, hrecorded, hchain⟩ := hfirst
    dsimp only
    rw [if_pos hpos]
    split
    · have hhead : node.head ≤ head _ := (congrArg (fun c => c.length - 1) hchain).ge
      obtain ⟨hsound₁, hhead₁, hchain₁, hkeep₁⟩ := hsound.ask hepoch hhead
      obtain ⟨hsound₂, -, hchain₂, hkeep₂⟩ := hsound₁.ask hepoch
        (hhead₁.ge.trans' (hhead.trans' (Nat.sub_le node.head (confirmBlockNum epoch))))
      exact ⟨hsound₂, hkeep₂ (hkeep₁ hrecorded), hchain₂.trans (hchain₁.trans hchain)⟩
    · exact ⟨hsound, hrecorded, hchain⟩
  · simp only [if_neg hpos]
    refine ⟨h, fun k hk heq => ?_, trivial⟩
    have := confirmPoint_pos hepoch hk
    omega

/-- **A safe step keeps a node sound.** -/
theorem Sound.step {node' : Node} {event : Event}
    (hsafe : node.Safe epoch event) (hstep : node.step epoch event = some node') :
    node'.Sound epoch first := by
  cases event with
  | query number =>
    obtain rfl := Option.some.inj hstep
    exact (h.getValidators hepoch hsafe).2.1
  | importBlock chain =>
    obtain rfl := Option.some.inj hstep
    obtain ⟨hnonempty, hkeeps⟩ := hsafe
    obtain ⟨hsound, hrecorded, hchain⟩ := h.updateP2pValidatorNodes hepoch
    have hhead : (node.updateP2pValidatorNodes epoch).head = node.head := by
      unfold head
      rw [hchain]
    -- a list of a confirm point that was reached is in the database once the nodes are updated
    have hreached : ∀ k, 1 ≤ k → confirmPoint epoch k ≤ node.head →
        (node.updateP2pValidatorNodes epoch).dpos k = confirmedList epoch first chain k := by
      intro k hk hle
      rw [hkeeps.confirmedList (.inl hle), ← hchain]
      rcases Nat.eq_or_lt_of_le hle with heq | hlt
      · exact hrecorded k hk (heq.trans hhead.symm)
      · exact hsound.passed k hk (hhead.symm ▸ hlt)
    refine ⟨hnonempty, hsound.genesis, fun k hk hlt => ?_, fun k hk heq => ?_, fun k hk hlt => ?_,
      fun point hpoint => ?_⟩
    · exact hreached k hk (hkeeps k hk (.inr hlt)).1
    · by_cases hle : confirmPoint epoch k ≤ node.head
      · exact .inr (hreached k hk hle)
      · exact .inl (hsound.ahead k hk (by omega))
    · refine hsound.ahead k hk ?_
      by_contra hle
      have := hkeeps.le_head h.nonempty hk (by omega)
      unfold head at hlt
      dsimp only at hlt
      omega
    · rcases hsound.memory point hpoint with hfirst | ⟨k, hk, heq, hle, hlist⟩
      · exact .inl hfirst
      · rw [hhead] at hle
        refine .inr ⟨k, hk, heq, hkeeps.le_head h.nonempty hk hle, hlist.trans ?_⟩
        rw [hchain]
        refine latestList_congr fun j hj => (hkeeps.confirmedList (.inl (hle.trans' ?_))).symm
        exact (confirmPoint_strictMono hepoch).monotone hj

end

theorem sound_genesis (account : ValidatorListAccount) (first : List Validator) :
    (genesis account first).Sound epoch first := by
  refine ⟨cons_ne_nil _ _, rfl, fun k hk hlt => ?_, fun k hk heq => ?_, fun k hk _ => ?_,
    fun point hpoint => absurd rfl hpoint⟩
  · exact absurd hlt (Nat.not_lt_zero _)
  · have hpos := confirmPoint_pos hepoch hk
    rw [heq] at hpos
    exact absurd hpos (Nat.lt_irrefl 0)
  · exact if_neg (by omega)

/-- **On a node that has lived safely the answers are the lists of its chain.** -/
theorem Sound.run {node' : Node} {events : List Event}
    (h : node.Sound epoch first) (hsafe : Run.Along (Node.step epoch) (Safe epoch) events node)
    (hrun : Run.run (Node.step epoch) events node = some node') : node'.Sound epoch first :=
  Run.run_inv (I := Sound epoch first) (fun hI hP hs => hI.step hepoch hP hs) h hsafe hrun

end

/-! ## 6. The validators of a number -/

/-- A block on top of the head is always safe. -/
theorem safe_append (epoch : Nat) {node : Node} (hnonempty : node.chain ≠ [])
    (account : ValidatorListAccount) :
    node.Safe epoch (.importBlock (node.chain ++ [account])) := by
  have hlength : 0 < node.chain.length := length_pos_iff.mpr hnonempty
  refine ⟨by simp, fun k _ hk => ?_⟩
  have hle : confirmPoint epoch k ≤ node.head := by
    rcases hk with hle | hlt
    · exact hle
    · unfold head
      rw [length_append, length_singleton] at hlt
      omega
  refine ⟨hle, getElem?_append_left ?_⟩
  unfold head at hle
  omega

/-- **The validators of a number are those of the chain**, on a node whose steps have all been safe,
for every number whose last confirm point the chain has passed.  So two such nodes agree when their
chains do. -/
theorem getValidators_eq {epoch : Nat} (hepoch : 2 ≤ epoch) (first : List Validator)
    {account : ValidatorListAccount} {events : List Event} {node : Node}
    (hsafe : Run.Along (step epoch) (Safe epoch) events (genesis account first))
    (hrun : Run.run (step epoch) events (genesis account first) = some node)
    {number : Nat} (hpassed : node.Passed epoch number) :
    (node.getValidators epoch number).2 = canonicalValidators epoch first node.chain number ∧
    ∀ {account' : ValidatorListAccount} {events' : List Event} {node' : Node},
      Run.Along (step epoch) (Safe epoch) events' (genesis account' first) →
      Run.run (Node.step epoch) events' (genesis account' first) = some node' →
      node'.chain = node.chain →
      (node'.getValidators epoch number).2 = (node.getValidators epoch number).2 := by
  have hsound := (sound_genesis hepoch account first).run hepoch hsafe hrun
  have hanswer := (hsound.getValidators hepoch hpassed).1
  refine ⟨hanswer, fun {account' events' node'} hsafe' hrun' hchain => ?_⟩
  have hsound' := (sound_genesis hepoch account' first).run hepoch hsafe' hrun'
  have hpassed' : node'.Passed epoch number := by
    unfold Passed head at hpassed ⊢
    rwa [hchain]
  rw [hanswer, (hsound'.getValidators hepoch hpassed').1, hchain]

/-- A list that elects the second round. -/
def elected : ValidatorListAccount :=
  { validatorCandidates := [{ enode := 0, owner := 2, voteAccount := 3, voteValue := 1 }],
    roundId := 1 }

/-- Epochs of four blocks: the second block confirms, the third is built on it. -/
def election : List Event :=
  [.importBlock [{}, {}], .importBlock [{}, {}, elected], .importBlock [{}, {}, elected, {}]]

theorem getValidators_elected :
    ∃ node, Run.run (step 4) election (genesis {} [{ owner := 1 }]) = some node ∧
      (node.getValidators 4 5).2 = canonicalValidators 4 [{ owner := 1 }] node.chain 5 ∧
      canonicalValidators 4 [{ owner := 1 }] node.chain 5 = [{ owner := 2 }] := by
  have hsafe : Run.Along (step 4) (Safe 4) election (genesis {} [{ owner := 1 }]) := by
    refine ⟨safe_append 4 (cons_ne_nil _ _) _, fun s hs => ?_⟩
    obtain rfl := Option.some.inj hs
    refine ⟨safe_append 4 (cons_ne_nil _ _) _, fun s hs => ?_⟩
    obtain rfl := Option.some.inj hs
    exact ⟨safe_append 4 (cons_ne_nil _ _) _, fun _ _ => trivial⟩
  have hrun : Run.run (step 4) election (genesis {} [{ owner := 1 }]) = some _ := rfl
  refine ⟨_, hrun, (getValidators_eq (by decide) _ hsafe hrun (.inr ?_)).1, ?_⟩ <;> decide +kernel

/-- Asked before the chain is there, the node answers with the first list and keeps to it: a node
with the same chain that was not asked has the second. -/
theorem getValidators_asked_early :
    ∃ asked unasked : Node,
      Run.run (step 4) (.query 5 :: election) (genesis {} [{ owner := 1 }]) = some asked ∧
      Run.run (step 4) election (genesis {} [{ owner := 1 }]) = some unasked ∧
      asked.chain = unasked.chain ∧ getLastConfirmPoint 5 4 < asked.head ∧
      (asked.getValidators 4 5).2 = [{ owner := 1 }] ∧
      (unasked.getValidators 4 5).2 = [{ owner := 2 }] ∧
      canonicalValidators 4 [{ owner := 1 }] asked.chain 5 = [{ owner := 2 }] := by
  refine ⟨_, _, rfl, rfl, rfl, ?_, ?_, ?_, ?_⟩ <;> decide +kernel

/-! ## 7. Disconnecting -/

/-- The peers that `updateP2pValidatorNodes` removes.  Who they are has no part in what becomes of
the node. -/
def removedPeers (parses : ValidatorEnode → Bool) (epoch : Nat) (node : Node) : List Validator :=
  (node.updatePeers epoch parses).2

/-- A second question about the same confirm point has the same answer. -/
theorem getValidators_again {epoch n m : Nat}
    (h : getLastConfirmPoint m epoch = getLastConfirmPoint n epoch) (node : Node) :
    ((node.getValidators epoch n).1.getValidators epoch m).2 = (node.getValidators epoch n).2 := by
  unfold getValidators
  rw [h]
  by_cases hepoch : epoch = 0
  · simp [hepoch]
  · by_cases hmem : node.validators (getLastConfirmPoint n epoch) = []
    · by_cases hnone : latestList node.dpos (validatorRoundId (getLastConfirmPoint n epoch) epoch) =
        []
      · simp [hepoch, hmem, hnone]
      · simp [hepoch, hmem, hnone]
    · simp [hepoch, hmem]

/-- So many blocks before the end of an epoch, the last confirm point is the one that it is at the
end. -/
theorem getLastConfirmPoint_before_end {epoch n : Nat} (hepoch : 1 ≤ epoch) (hn : 0 < n)
    (hend : n % epoch = 0) :
    getLastConfirmPoint (n - confirmBlockNum epoch) epoch = getLastConfirmPoint n epoch := by
  rcases Nat.eq_or_lt_of_le hepoch with rfl | hepoch
  · rfl
  · have hbounds := confirmBlockNum_bounds hepoch
    obtain ⟨k, rfl⟩ := Nat.dvd_of_mod_eq_zero hend
    have hk : 1 ≤ k := Nat.pos_of_ne_zero (by rintro rfl; omega)
    rw [getLastConfirmPoint_eq hepoch, getLastConfirmPoint_eq hepoch, Nat.mul_comm, Nat.sub_sub,
      div_of_near hepoch hk (by omega) (by omega), div_of_near hepoch hk (le_refl 1) (by omega)]

/-- **Nobody is ever disconnected.** -/
theorem removedPeers_eq_nil {epoch : Nat} (hepoch : 1 ≤ epoch) (parses : ValidatorEnode → Bool)
    (node : Node) :
    node.removedPeers parses epoch = [] := by
  unfold removedPeers updatePeers
  dsimp only
  split
  next hpos =>
    split
    next hend =>
      rw [getValidators_again (getLastConfirmPoint_before_end hepoch hpos hend), filter_eq_nil_iff]
      intro v hv hremoved
      have hother := all_eq_true.mp (of_decide_eq_true hremoved).1 v hv
      exact of_decide_eq_true hother rfl
    next => rfl
  next => rfl

/-- **When the right peers are disconnected** at the end of an epoch: those of the round that ends
who are not among the next are all of them if and only if there are none. -/
theorem disconnects_iff {epoch : Nat} (hepoch : 1 ≤ epoch) (parses : ValidatorEnode → Bool)
    (node : Node) :
    let ending := (node.getValidators epoch node.head).2
    let next := ((node.updateP2pValidatorNodes epoch).getValidators epoch (node.head + 1)).2
    (∀ v, v ∈ node.removedPeers parses epoch ↔ v ∈ ending ∧ ∀ u ∈ next, u.owner ≠ v.owner) ↔
      ∀ v ∈ ending, ∃ u ∈ next, u.owner = v.owner := by
  intro ending next
  rw [removedPeers_eq_nil hepoch]
  refine forall_congr' fun v => ?_
  simp only [not_mem_nil, false_iff, not_and, not_forall, not_not, exists_prop]

/-- Without an election the validators stay, and nobody has to be disconnected. -/
theorem disconnects_iff_unchanged :
    let node := { genesis {} [{ owner := 1 }] with chain := replicate 5 {} }
    (node.getValidators 4 node.head).2 = [{ owner := 1 }] ∧
    ∀ v, v ∈ node.removedPeers (fun _ => true) 4 ↔ v ∈ (node.getValidators 4 node.head).2 ∧
      ∀ u ∈ ((node.updateP2pValidatorNodes 4).getValidators 4 (node.head + 1)).2,
      u.owner ≠ v.owner := by
  intro node
  exact ⟨by decide +kernel, (disconnects_iff (by decide) _ node).mpr (by decide +kernel)⟩

/-- **The validator that is voted out stays connected.** -/
theorem voted_out_stays_connected : ∃ node,
    Run.run (step 4) (election ++ [.importBlock [{}, {}, elected, {}, {}]])
      (genesis {} [{ owner := 1 }]) = some node ∧
    node.head = 4 ∧ (node.getValidators 4 4).2 = [{ owner := 1 }] ∧
    ((node.updateP2pValidatorNodes 4).getValidators 4 5).2 = [{ owner := 2 }] ∧
    node.removedPeers (fun _ => true) 4 = [] := by
  refine ⟨_, rfl, ?_, ?_, ?_, ?_⟩ <;> decide +kernel

end Node

end ProbeChain
