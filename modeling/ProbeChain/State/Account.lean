/-
# Accounts and state objects

`core/state/state_object.go` and `core/state/validator_candidate.go`.  A state object carries
one record for EACH of the seven account types and a tag that says which one counts; the
business operations write to whichever record they are about without looking at the tag, so
all seven are kept.

A `*big.Int` that may be nil is an `Option`: a new Regular account has no `VoteValue`, and a
new Authorize or Loss account has no amounts and no heights until its creator sets them.  The
`Value` of a Regular account and the two amounts of a Contract account are set by the
constructors and by the decoder, so they are plain integers here; `regularValue` gives back
the nil that the `Value` of every OTHER type is.

Not kept: the address (it is the key of the object), the redundant `AccType` of each record,
the storage root and the caches that only decide what is flushed.  Contract storage is what
`GetState` answers (`storage`) beside what `GetCommittedState` answers (`committedStorage`).
-/
import ProbeChain.Common.Types
import Mathlib.Data.List.Sort

namespace ProbeChain

open List

/-! ## 1. The records -/

structure RegularAccount where
  voteAccount : Address := 0
  voteValue : Option Int := none
  lossType : LossType := 0
  nonce : UInt64 := 0
  value : Int := 0
  deriving DecidableEq

structure PnsAccount where
  pnsType : UInt8 := 0
  owner : Address := 0
  data : Bytes := []
  deriving DecidableEq

structure ContractAccount where
  codeHash : Hash := 0
  value : Int := 0
  voteAccount : Address := 0
  voteValue : Int := 0
  nonce : UInt64 := 0
  deriving DecidableEq

structure AuthorizeAccount where
  owner : Address := 0
  pledgeValue : Option Int := none
  voteValue : Option Int := none
  info : Bytes := []
  validPeriod : Option Nat := none
  deriving DecidableEq

structure LossAccount where
  state : LossState := .apply
  lostAccount : Address := 0
  newAccount : Address := 0
  height : Option Nat := none
  infoDigest : Hash := 0
  lastBits : UInt32 := 0
  deriving DecidableEq

structure LossMarkAccount where
  lossMark : LossMark := 0
  deriving DecidableEq

structure DPoSCandidateAccount where
  enode : ValidatorEnode
  owner : Address
  voteAccount : Address
  voteValue : Int
  deriving DecidableEq

structure ValidatorListAccount where
  validatorCandidates : List DPoSCandidateAccount := []
  roundId : UInt64 := 0
  deriving DecidableEq

/-! ## 2. The validator list -/

def validatorNodeLength : Nat := 64

/-- `Less`: more votes first, then the greater owner address. -/
def DPoSCandidateAccount.less (c d : DPoSCandidateAccount) : Bool :=
  if c.voteValue = d.voteValue then d.owner.toNat < c.owner.toNat else d.voteValue < c.voteValue

/-- What the standard library's `sort.Sort` promises for `Less`: a permutation in which no
element comes after one it should precede.  It does not promise an order among equals. -/
structure CandidateSort where
  sort : List DPoSCandidateAccount → List DPoSCandidateAccount
  perm : ∀ l, (sort l).Perm l
  sorted : ∀ l, (sort l).Pairwise (fun c d => ¬ d.less c)

variable {e : DPoSCandidateAccount}

theorem DPoSCandidateAccount.not_less_trans {c d : DPoSCandidateAccount} (hcd : ¬ d.less c)
    (hde : ¬ e.less d) : ¬ e.less c := by
  unfold less at *
  split_ifs at * <;> simp only [decide_eq_true_eq] at * <;> omega

theorem DPoSCandidateAccount.not_less_total (c d : DPoSCandidateAccount) :
    ¬ d.less c ∨ ¬ c.less d := by
  unfold less
  split_ifs <;> simp only [decide_eq_true_eq] <;> omega

/-- One that keeps its promises. -/
def CandidateSort.insertion : CandidateSort where
  sort := insertionSort fun c d => ¬ d.less c
  perm := perm_insertionSort _
  sorted := fun l =>
    haveI : Std.Total fun c d : DPoSCandidateAccount => ¬ d.less c :=
      ⟨DPoSCandidateAccount.not_less_total⟩
    haveI : IsTrans _ fun c d : DPoSCandidateAccount => ¬ d.less c :=
      ⟨fun _ _ _ => DPoSCandidateAccount.not_less_trans⟩
    pairwise_insertionSort _ l

/-- The first entry of the same vote account is replaced. -/
def replaceCandidate (cur : DPoSCandidateAccount) :
    List DPoSCandidateAccount → Option (List DPoSCandidateAccount)
  | [] => none
  | node :: rest =>
    if node.voteAccount = cur.voteAccount then some (cur :: rest)
    else (replaceCandidate cur rest).map (node :: ·)

/-- A candidate replaces its own entry or is appended; the list is sorted and cut off. -/
def ValidatorListAccount.addValidatorCandidate (S : CandidateSort) (d : ValidatorListAccount)
    (cur : DPoSCandidateAccount) : ValidatorListAccount :=
  let candidates :=
    match replaceCandidate cur d.validatorCandidates with
    | some l => l
    | none => d.validatorCandidates ++ [cur]
  { d with validatorCandidates := (S.sort candidates).take validatorNodeLength }

theorem mem_replaceCandidate {cur : DPoSCandidateAccount} :
    ∀ {l l' : List DPoSCandidateAccount}, replaceCandidate cur l = some l' → e ∈ l' →
      e = cur ∨ e ∈ l
  | [], _, h, _ => by cases h
  | node :: rest, l', h, he => by
    simp only [replaceCandidate] at h
    split at h
    · cases h
      rcases mem_cons.mp he with h | h
      · exact .inl h
      · exact .inr (mem_cons_of_mem _ h)
    · obtain ⟨m, hm, rfl⟩ := Option.map_eq_some_iff.mp h
      rcases mem_cons.mp he with h | h
      · exact .inr (h ▸ mem_cons_self)
      · rcases mem_replaceCandidate hm h with h | h
        · exact .inl h
        · exact .inr (mem_cons_of_mem _ h)

/-- The candidates listed are old ones and the new one. -/
theorem mem_addValidatorCandidate {S : CandidateSort} {d : ValidatorListAccount}
    {cur : DPoSCandidateAccount} (he : e ∈ (d.addValidatorCandidate S cur).validatorCandidates) :
    e = cur ∨ e ∈ d.validatorCandidates := by
  have he := (S.perm _).mem_iff.mp (mem_of_mem_take he)
  split at he
  · exact mem_replaceCandidate ‹_› he
  · rcases mem_append.mp he with h | h
    · exact .inr h
    · exact .inl (mem_singleton.mp h)

/-! ## 3. State objects -/

structure StateObject where
  accountType : AccountType
  regularAccount : RegularAccount := {}
  pnsAccount : PnsAccount := {}
  assetAccount : ContractAccount := {}
  authorizeAccount : AuthorizeAccount := {}
  lossAccount : LossAccount := {}
  lossMarkAccount : LossMarkAccount := {}
  validatorListAccount : ValidatorListAccount := {}
  code : Bytes := []
  storage : Hash → Hash := fun _ => 0
  committedStorage : Hash → Hash := fun _ => 0
  suicided : Bool := false
  deleted : Bool := false

namespace StateObject

/-- `keccak256` of the empty string, the code hash a new Contract account starts with. -/
def emptyCodeHash : Hash := 0xc5d2460186f7233c927e7db2dcc703c0e500b653ca82273b7bfad8045d85a470

/-- `newRegularAccount` and its siblings on empty data. -/
def new (accType : AccountType) : StateObject :=
  match accType with
  | .contract => { accountType := .contract, assetAccount := { codeHash := emptyCodeHash } }
  | t => { accountType := t }

/-- A Regular account that holds `value` and has cast no vote. -/
def ofBalance (value : Int) : StateObject :=
  { accountType := .regular, regularAccount := { value := value, voteValue := some 0 } }

variable (t : AccountType)

@[simp] theorem new_accountType : (new t).accountType = t := by cases t <;> rfl

@[simp] theorem new_regularAccount : (new t).regularAccount = {} := by
  cases t <;> rfl

@[simp] theorem new_authorizeAccount : (new t).authorizeAccount = {} := by
  cases t <;> rfl

@[simp] theorem new_deleted : (new t).deleted = false := by cases t <;> rfl

/-- Zero for the types that carry no balance. -/
def balance (o : StateObject) : Int :=
  match o.accountType with
  | .regular => o.regularAccount.value
  | .contract => o.assetAccount.value
  | _ => 0

def setBalance (o : StateObject) (amount : Int) : StateObject :=
  match o.accountType with
  | .regular => { o with regularAccount := { o.regularAccount with value := amount } }
  | .contract => { o with assetAccount := { o.assetAccount with value := amount } }
  | _ => o

def nonce (o : StateObject) : UInt64 :=
  match o.accountType with
  | .regular => o.regularAccount.nonce
  | .contract => o.assetAccount.nonce
  | _ => 0

def setNonce (o : StateObject) (nonce : UInt64) : StateObject :=
  match o.accountType with
  | .regular => { o with regularAccount := { o.regularAccount with nonce := nonce } }
  | .contract => { o with assetAccount := { o.assetAccount with nonce := nonce } }
  | _ => o

def setCode (o : StateObject) (codeHash : Hash) (code : Bytes) : StateObject :=
  { o with code := code, assetAccount := { o.assetAccount with codeHash := codeHash } }

def setState (o : StateObject) (key value : Hash) : StateObject :=
  { o with storage := Function.update o.storage key value }

def markSuicided (o : StateObject) : StateObject := { o with suicided := true }

/-- The storage written in the transaction becomes the committed storage. -/
def finalise (o : StateObject) : StateObject := { o with committedStorage := o.storage }

/-- `regularAccount.Value`, nil for every object of another type. -/
def regularValue (o : StateObject) : Option Int :=
  if o.accountType = .regular then some o.regularAccount.value else none

/-- The two vote fields of the Regular record. -/
def setVote (o : StateObject) (voteAccount : Address) (voteValue : Int) : StateObject :=
  { o with regularAccount :=
      { o.regularAccount with voteAccount := voteAccount, voteValue := some voteValue } }

/-- Voting `v` for `addr`: a missing value counts as zero. -/
def addVote (o : StateObject) (addr : Address) (v : Int) : StateObject :=
  o.setVote addr (v + o.regularAccount.voteValue.getD 0)

/-- The accumulated votes of the Authorize record. -/
def setAuthorizeVote (o : StateObject) (voteValue : Int) : StateObject :=
  { o with authorizeAccount := { o.authorizeAccount with voteValue := some voteValue } }

/-- Both amounts of the Authorize record. -/
def setStake (o : StateObject) (pledgeValue voteValue : Int) : StateObject :=
  { o with authorizeAccount :=
      { o.authorizeAccount with pledgeValue := some pledgeValue, voteValue := some voteValue } }

def setLossType (o : StateObject) (lossType : LossType) : StateObject :=
  { o with regularAccount := { o.regularAccount with lossType := lossType } }

def setLossState (o : StateObject) (state : LossState) : StateObject :=
  { o with lossAccount := { o.lossAccount with state := state } }

end StateObject

end ProbeChain
