/-
# The vote ledger in every state the pool leads to

In every state that is reached from the genesis block by transactions which the pool accepts on the
state they are executed on, with any snapshots and reverts, the total of an Authorize account should
be its pledge and all votes for it.

It is not.  A revert takes a vote off the total of the candidate and leaves it with the voter
(`revert_breaks_ledger`); and the end of a transaction may delete a lost account that has votes.
Without that the ledger is right: `vote_ledger` is about every run in which nothing that is reverted
moves votes of accounts that existed before, and in which no account is deleted that has votes or is
voted for.
-/
import ProbeChain.Pool.Genesis
import ProbeChain.Pool.Validate
import ProbeChain.State.VoteUndo

namespace ProbeChain

open Check Scope StateObject Option World StateDB

/-! ## 1. The genesis block -/

/-- Nobody votes, and there is nobody to vote for. -/
def World.Unvoted (w : World) : Prop := ∀ a, w.standing a = .absent

theorem ungiven_standing : Ungiven standing .absent where
  toCashless := quiet_standing.toCashless
  code _ _ _ := rfl
  nonce o n := standing_eq_of_voteRecord (voteRecord_setNonce o n)
  storage _ _ _ := rfl
  validatorList := quiet_standing.validatorList
  contract := quiet_standing.new .contract (by decide)
  dpos := quiet_standing.dpos
  finalise _ := rfl

/-- **There are no votes in the genesis block.** -/
theorem unvoted_genesisState (X : Externals) (pob : Bool)
    (alloc : List (Address × GenesisAccount)) :
    (genesisState X pob alloc).world.Unvoted :=
  congrFun (view_genesisState ungiven_standing X pob alloc)

theorem World.Unvoted.tallied {w : World} (h : w.Unvoted) : w.Tallied := by
  have hcast (a : Address) : w.ballots.cast a = (0, 0) := congrArg Standing.cast (h a)
  have hstake (a : Address) : w.ballots.stake a = none := congrArg Standing.stake (h a)
  refine ⟨⟨fun a => ?_, fun a ha => ?_, fun a p v ha => ?_⟩, fun a => ?_, hstake 0⟩
  · rw [hcast]
  · rw [hcast] at ha
    exact absurd rfl ha
  · rw [hstake] at ha
    cases ha
  · rw [h a]
    trivial

/-! ## 2. What the pool accepts -/

/-- A transaction on its way into a block: `pool` is the pool but for its state. -/
structure Submission where
  pool : Pool
  tx : Transaction
  isLocal : Bool := false
  pobEpoch : UInt64 := 0
  blockNumber : Option Nat := none

/-- What happens to the state between two blocks. -/
inductive PoolAction where
  | submit (m : Submission)
  | finalise

/-- The transaction is checked on the state it is executed on. -/
def Submission.step (X : Externals) (s : StateDB) (m : Submission) : Option StateDB :=
  match ({ m.pool with currentState := s } : Pool).validateTx X m.tx m.isLocal, m.tx.sender with
  | .ok (), some sender => callDB X s (m.tx.context sender m.pobEpoch m.blockNumber)
  | _, _ => none

/-- A scope is a snapshot, and abandoning it a revert. -/
def poolStore (X : Externals) : Store StateDB PoolAction where
  step s
    | .submit m => m.step X s
    | .finalise => some s.finalise
  enter s := s.snapshot.1
  abandon s t := t.revertToSnapshot s.snapshot.2

theorem Submission.step_eq_some {X : Externals} {s s' : StateDB} {m : Submission}
    (h : m.step X s = some s') :
    ∃ sender, m.tx.sender = some sender ∧
      ({ m.pool with currentState := s } : Pool).validateTx X m.tx m.isLocal = .ok () ∧
      callDB X s (m.tx.context sender m.pobEpoch m.blockNumber) = some s' := by
  rw [Submission.step] at h
  split at h
  next sender hpool hsender =>
    exact ⟨sender, hsender, hpool, h⟩
  · cases h

namespace Pool

variable {X : Externals} {pool : Pool} {tx : Transaction} {sender : Address}

theorem regular_of_validateSender (h : pool.validateSender tx = .ok sender) :
    ∃ q, pool.currentState.world sender = some q ∧ q.accountType = .regular := by
  simp only [validateSender, getOr_bind_eq_ok, require_bind_eq_ok] at h
  obtain ⟨a, -, q, hq, hregular, -, -, hsender⟩ := h
  cases hsender
  exact ⟨q, hq, hregular⟩

theorem candidate_of_validateTxOfVote (h : pool.validateTxOfVote tx sender = .ok ())
    {addr : Address} (hd : decodeAddress tx.data = some addr) :
    pool.currentState.world.IsCandidate addr ∧ ∃ q, pool.currentState.world sender = some q ∧
      (q.regularAccount.voteAccount = 0 ∨ q.regularAccount.voteAccount = addr) := by
  simp only [validateTxOfVote, deref, getOr_bind_eq_ok, require_bind_eq_ok, require_eq_ok] at h
  obtain ⟨addr', haddr, o, ho, htype, period, -, -, q, hq, hfree⟩ := h
  cases haddr.symm.trans hd
  exact ⟨⟨o, ho, htype⟩, q, hq, hfree⟩

theorem candidate_of_validateTxOfRedemption (h : pool.validateTxOfRedemption tx sender = .ok ())
    {addr : Address} (hd : decodeAddress tx.data = some addr) :
    pool.currentState.world.IsCandidate addr := by
  simp only [validateTxOfRedemption, getOr_bind_eq_ok, require_bind_eq_ok] at h
  obtain ⟨addr', haddr, o, ho, htype, -⟩ := h
  cases haddr.symm.trans hd
  exact ⟨o, ho, htype⟩

/-- A registration is checked to be at a free address. -/
theorem free_of_validateTxOfRegister {op : Operation}
    (h : pool.validateTxOfRegister X tx sender op = .ok ()) :
    ∃ a, pool.registeredAddress X tx sender op = .ok a ∧ pool.currentState.world a = none := by
  rw [validateTxOfRegister, bind_eq_ok] at h
  obtain ⟨a, ha, hnone⟩ := h
  rw [require_eq_ok, isNone_iff_eq_none] at hnone
  exact ⟨a, ha, hnone⟩

theorem free_of_registerPns (h : pool.validateTxOfRegister X tx sender .registerPns = .ok ()) :
    pool.currentState.world (createPNSAddress X sender tx.data) = none := by
  obtain ⟨a, ha, hnone⟩ := free_of_validateTxOfRegister h
  rw [registeredAddress, require_bind_eq_ok] at ha
  cases ha.2
  exact hnone

theorem free_of_registerAuthorize
    (h : pool.validateTxOfRegister X tx sender .registerAuthorize = .ok ()) :
    pool.currentState.world (createAddress X sender tx.nonce) = none := by
  obtain ⟨a, ha, hnone⟩ := free_of_validateTxOfRegister h
  rw [registeredAddress, getOr_bind_eq_ok] at ha
  obtain ⟨num, -, ha⟩ := ha
  rw [require_bind_eq_ok] at ha
  cases ha.2
  exact hnone

/-- A report asks for a free mark, too. -/
theorem free_of_registerLose (h : pool.validateTxOfRegister X tx sender .registerLose = .ok ()) :
    pool.currentState.world (createAddress X sender tx.nonce) = none ∧
      ∃ d, decodeRegisterLoss tx.data = some d ∧ pool.canLossMark d.lastBitsMark = .ok () := by
  obtain ⟨a, ha, hnone⟩ := free_of_validateTxOfRegister h
  rw [registeredAddress, getOr_bind_eq_ok] at ha
  obtain ⟨d, hd, ha⟩ := ha
  obtain ⟨hmark, ha⟩ := then_eq_ok.mp ha
  cases ha
  exact ⟨hnone, d, hd, hmark⟩

/-- **What the pool checks is what the ledger needs**, but for the hash of an address being zero. -/
theorem admits_of_validateTx {isLocal : Bool} (h : pool.validateTx X tx isLocal = .ok ())
    (hsender : tx.sender = some sender) (pobEpoch : UInt64) (blockNumber : Option Nat)
    (hzero : tx.toAddr.map operationOf = some .registerAuthorize →
      createAddress X sender tx.nonce ≠ 0) :
    pool.currentState.world.Admits X (tx.context sender pobEpoch blockNumber) := by
  obtain ⟨sender', hchecked, hop⟩ := validateTx_eq_ok h
  cases (validateSender_eq_ok hchecked).symm.trans hsender
  obtain ⟨q, hq, hregular⟩ := regular_of_validateSender hchecked
  have hdest : (tx.context sender pobEpoch blockNumber).toAddr = tx.toAddr := rfl
  rw [World.Admits, hdest]
  cases hto : tx.toAddr with
  | none => trivial
  | some dest =>
    have hop := hop dest hto
    rw [validateOperation] at hop
    rw [hto] at hzero
    rw [map_some] at hzero ⊢
    cases hkind : operationOf dest <;> rw [hkind] at hop hzero <;>
      dsimp only at hop ⊢ <;> try trivial
    case registerPns => exact free_of_registerPns hop
    case registerAuthorize => exact ⟨free_of_registerAuthorize hop, hzero rfl⟩
    case registerLose => exact (free_of_registerLose hop).1
    case vote =>
      intro addr hd
      obtain ⟨hcandidate, q', hq', hfree⟩ := candidate_of_validateTxOfVote hop hd
      cases hq'.symm.trans hq
      exact ⟨hcandidate, q, hq, hregular, hfree⟩
    case redemption =>
      exact fun addr hd => ⟨candidate_of_validateTxOfRedemption hop hd, q, hq, hregular⟩

end Pool

/-! ## 3. Runs

Two facts are carried along: the votes tally, and a snapshot that has not been forgotten is good for
them.  The second makes a revert harmless. -/

/-- **What has to hold before an action that is not taken back.**  No Authorize account is
registered at address zero, and no account is deleted that has votes or is voted for. -/
def PoolAction.Orderly (X : Externals) (s : StateDB) : PoolAction → Prop
  | .submit m => ∀ sender, m.tx.sender = some sender →
      m.tx.toAddr.map operationOf = some .registerAuthorize → createAddress X sender m.tx.nonce ≠ 0
  | .finalise => ∀ a o, s.world a = some o → o.regularVotes ≠ 0 →
      ¬ s.Deletes a ∧ ¬ s.Deletes o.regularAccount.voteAccount

/-- **What has to hold before an action that is taken back**: no votes move of accounts that existed
at the snapshot.  The accounts in `A` did not. -/
def PoolAction.VotesUndoable (A : Set Address) (s : StateDB) : PoolAction → Prop
  | .submit m => ∀ sender, m.tx.sender = some sender →
      s.VotesUndoable A (m.tx.context sender m.pobEpoch m.blockNumber)
  | .finalise => True

/-- Nothing in the scope moves votes of accounts that existed when it was opened. -/
def VotesUndoable (X : Externals) (s : StateDB) (body : Trace PoolAction) : Prop :=
  body.Each (poolStore X) (fun t a => a.VotesUndoable {a | s.getStateObject a = none} t)
    s.snapshot.1

variable {X : Externals} {s s' t u : StateDB}

theorem tallied_step {a : PoolAction} (ha : a.Orderly X s) (h : (poolStore X).step s a = some s')
    (hs : s.world.Tallied) : s'.world.Tallied := by
  cases a with
  | submit m =>
    obtain ⟨sender, hsender, hpool, hcall⟩ := Submission.step_eq_some h
    have hadmits :=
      Pool.admits_of_validateTx hpool hsender m.pobEpoch m.blockNumber (ha sender hsender)
    exact hs.advance (advances_callDB hs hadmits (world_callDB hcall))
  | finalise =>
    cases h
    -- an account that is not there has no votes
    have hvoter (a : Address) (hvotes : (s.world.ballots.cast a).2 ≠ 0) :
        ¬ s.Deletes a ∧ ¬ s.Deletes (s.world.ballots.cast a).1 := by
      cases ho : s.world a with
      | none =>
        rw [cast_of_none ho] at hvotes
        exact absurd rfl hvotes
      | some o =>
        rw [cast_of_some ho] at hvotes ⊢
        exact ha a o ho hvotes
    refine hs.advance (advances_finalise hs (fun a hdeletes => ?_) fun a hvotes =>
      (hvoter a hvotes).2)
    by_contra hvotes
    exact (hvoter a hvotes).1 hdeletes

/-- The snapshot taken in `s` is good for the votes, or it is lost: `Finalise` forgets all
snapshots. -/
theorem kept_step {a : PoolAction}
    (h : StateDB.SinceUpTo (StateDB.Recast {a | s.getStateObject a = none}) s t ∨
      StateDB.Forgotten s t)
    (ha : a.VotesUndoable {a | s.getStateObject a = none} t)
    (hu : (poolStore X).step t a = some u) :
    StateDB.SinceUpTo (StateDB.Recast {a | s.getStateObject a = none}) s u ∨
    StateDB.Forgotten s u := by
  cases a with
  | submit m =>
    obtain ⟨sender, hsender, -, hcall⟩ := Submission.step_eq_some hu
    obtain ⟨hr, hn⟩ := revisions_callDB hcall
    rcases h with h | h
    · exact .inl (h.of_undoes (backtracks_recast _) (recasts_callDB (ha sender hsender) hcall)
        hr hn)
    · exact .inr ⟨hr ▸ h.revisions, hn ▸ h.nextRevisionId⟩
  | finalise =>
    cases hu
    refine .inr ⟨fun r hr => absurd hr List.not_mem_nil, ?_⟩
    rcases h with h | h
    · exact h.nextRevisionId
    · exact h.nextRevisionId

/-- **A scope that moves no votes goes back.** -/
theorem VotesUndoable.goesBack {body : Trace PoolAction} (h : VotesUndoable X s body) :
    body.GoesBack (poolStore X) (fun s u => u.world.standing = s.world.standing) s := by
  intro t u ht hu
  have hbacktracks := backtracks_recast {a | s.getStateObject a = none}
  have hkept := Trace.run_inv (M := poolStore X) (K := fun t =>
      StateDB.SinceUpTo (StateDB.Recast {a | s.getStateObject a = none}) s t ∨
        StateDB.Forgotten s t)
    kept_step
    (fun h => h.imp (fun h => h.snapshot hbacktracks) fun h => h.snapshot)
    (fun hopened hbody habandoned => by
      rcases hbody with hbody | hbody
      · refine .inl (hbody.revertToSnapshot hbacktracks ?_ habandoned)
        exact hopened.elim (fun h => h.nextRevisionId) fun h => h.nextRevisionId
      · exact .inr (hbody.revertToSnapshot habandoned))
    (.inl (sinceUpTo_snapshot hbacktracks s)) h ht
  rcases hkept with hgood | hlost
  · exact hgood.standing_eq hu
  · exact absurd hu hlost.not_revert

/-- **The vote ledger.**  Start without votes, let any transactions the pool accepts be executed,
with snapshots and reverts.  As long as nothing that is reverted moves votes of accounts that
existed at the snapshot, no account is deleted that has votes or is voted for, and no Authorize
account is registered at address zero, every Authorize account has a total of its pledge and all
votes for it. -/
theorem vote_ledger (X : Externals) (s s' : StateDB) (p : Trace PoolAction) (hs : s.world.Unvoted)
    (hp : p.Along (poolStore X) (fun s a => a.Orderly X s) (VotesUndoable X) s)
    (hrun : p.run (poolStore X) s = some s') (a : Address) (o : StateObject)
    (ha : s'.world a = some o) (htype : o.accountType = .authorize) :
    ∃ pledge, o.authorizeAccount.pledgeValue = some pledge ∧
      o.authorizeAccount.voteValue = some (pledge + s'.world.votesFor a) := by
  have hsteps := hp.mono (fun _ _ h => h) fun _ _ h => h.goesBack
  have hkept : s.world.Tallied → s'.world.Tallied :=
    Trace.run_rel (R := fun s s' => s.world.Tallied → s'.world.Tallied) (fun _ h => h)
      (fun h h' hs => h' (h hs)) tallied_step (fun _ h => h)
        (fun h hs => hs.of_standing_eq h) hsteps hrun
  exact (hkept hs.tallied).balanced ha htype

/-! ## 4. Runs from a genesis block -/

/-- The genesis block with one account. -/
def oneAccount : StateDB := genesisState plainExternals true [(1, { balance := 10 ^ 24 })]

/-- A call of account `1`, as the pool takes it. -/
def ledgerCall (dest : Address) (value : Int) (data : Bytes) : Submission :=
  { pool := { currentState := .ofAccounts [], currentNumber := 100,
              currentMaxGas := 8000000, gasPrice := 1, eip2718 := true, eip1559 := true,
              istanbul := true }
    tx := { sender := some 1, toAddr := some dest, value := value, gas := 100000, gasPrice := 1,
            gasFeeCap := 1, gasTipCap := 1, data := Rlp.encodeList (Rlp.encodeString data) } }

/-- It registers an Authorize account, which comes to be at `0x180`. -/
def registerFifty : Submission := ledgerCall 0x102 50 [200]

/-- It votes for that account. -/
def voteSevenFor : Submission := ledgerCall 0x105 7 (Address.bytes 0x180)

/-- The period of loss reports is changed and the change is reverted; then the vote. -/
def revertedThenVote : Trace PoolAction :=
  .act .finalise (.act (.submit registerFifty)
    (.scope (.act (.submit (ledgerCall 0x115 0 [3])) .nil) true
      (.act (.submit voteSevenFor) .nil)))

theorem vote_ledger_revertedThenVote : ∃ s' o,
    revertedThenVote.run (poolStore plainExternals) oneAccount = some s' ∧ s'.world 0x180 = some o ∧
    o.authorizeAccount.pledgeValue = some 50 ∧ o.authorizeAccount.voteValue = some 57 ∧
    s'.world.votesFor 0x180 = 7 := by
  have hs : oneAccount.world.Unvoted := unvoted_genesisState plainExternals true _
  have hsteps : revertedThenVote.Along (poolStore plainExternals)
      (fun s a => a.Orderly plainExternals s)
      (VotesUndoable plainExternals) oneAccount := by
    refine ⟨fun a o ho hvotes => ?_, fun s₁ _ =>
      ⟨?_, fun s₂ _ => ⟨fun _ => ?_, nofun, fun t u _ _ => ⟨?_, ?_⟩⟩⟩⟩
    · have hcast := congrArg Standing.cast ((standing_of_some ho).symm.trans (hs a))
      exact absurd (congrArg Prod.snd hcast) hvotes
    · rintro sender ⟨⟩ -
      decide
    · exact ⟨fun _ _ => trivial, fun _ _ => trivial⟩
    · exact fun _ _ hregister => absurd hregister (by decide)
    · exact fun _ _ => trivial
  obtain ⟨s', hrun, o, ho, htype, hpledge, htotal⟩ : ∃ s',
      revertedThenVote.run (poolStore plainExternals) oneAccount = some s' ∧
      ∃ o, s'.world 0x180 = some o ∧
        o.accountType = .authorize ∧ o.authorizeAccount.pledgeValue = some 50 ∧
        o.authorizeAccount.voteValue = some 57 := ⟨_, rfl, _, rfl, rfl, rfl, rfl⟩
  obtain ⟨pledge, hpledge', htotal'⟩ :=
    vote_ledger plainExternals oneAccount s' revertedThenVote hs hsteps hrun
    0x180 o ho htype
  obtain rfl : (50 : Int) = pledge := some.inj (hpledge.symm.trans hpledge')
  have hsum : (57 : Int) = 50 + s'.world.votesFor 0x180 := some.inj (htotal.symm.trans htotal')
  exact ⟨s', o, hrun, ho, hpledge, htotal, by omega⟩

def oneCandidate : StateDB := (registerFifty.step plainExternals oneAccount).get rfl

theorem step_registerFifty : registerFifty.step plainExternals oneAccount = some oneCandidate :=
  (some_get _).symm

theorem tallied_oneCandidate : oneCandidate.world.Tallied := by
  refine tallied_step (X := plainExternals) (s := oneAccount)
    (a := .submit registerFifty) ?_ step_registerFifty
    (unvoted_genesisState plainExternals true _).tallied
  rintro sender ⟨⟩ -
  decide

theorem votesFor_oneCandidate : oneCandidate.world.votesFor 0x180 = 0 := by
  obtain ⟨pledge, hpledge, htotal⟩ := tallied_oneCandidate.balanced (a := 0x180) rfl rfl
  obtain rfl : (50 : Int) = pledge := some.inj hpledge
  have hsum : (50 : Int) = 50 + oneCandidate.world.votesFor 0x180 := some.inj htotal
  omega

def voteTaken : StateDB := (voteSevenFor.step plainExternals oneCandidate.snapshot.1).get rfl

theorem step_voteSevenFor : voteSevenFor.step plainExternals oneCandidate.snapshot.1 =
    some voteTaken :=
  (some_get _).symm

def voteReverted : StateDB := (voteTaken.revertToSnapshot oneCandidate.snapshot.2).get rfl

theorem revertToSnapshot_voteTaken :
    voteTaken.revertToSnapshot oneCandidate.snapshot.2 = some voteReverted := (some_get _).symm

/-- The revert brings everything back but the voter. -/
theorem world_voteReverted {b : Address} (hb : b ≠ 1) :
    voteReverted.world b = oneCandidate.world b := by
  obtain ⟨sender, hsender, -, hcall⟩ := Submission.step_eq_some step_voteSevenFor
  have hundoes : StateDB.Undoes {1} oneCandidate.snapshot.1 voteTaken := by
    refine undoes_callDB ?_ hcall
    cases hsender
    exact fun _ _ => .inl rfl
  have hsince := Since.of_undoes (since_snapshot {1} oneCandidate) hundoes
  obtain ⟨r, hr, hrestored, -⟩ := SinceUpTo.exists_revert (backtracks_restored {1}) hsince
  obtain rfl : r = voteReverted := some.inj (hr.symm.trans revertToSnapshot_voteTaken)
  rcases hrestored.objects b with heq | ⟨hone, -⟩
  · exact getStateObject_congr heq
  · exact absurd hone hb

theorem votesFor_voteReverted : voteReverted.world.votesFor 0x180 = 7 := by
  obtain ⟨o, ho, hnone, hstake⟩ : ∃ o, oneCandidate.world 1 = some o ∧ o.castVote = (0, 0) ∧
      o.stake = none :=
    ⟨_, rfl, rfl, rfl⟩
  obtain ⟨q, hq, hvotes, hstake'⟩ : ∃ q, voteReverted.world 1 = some q ∧ q.castVote = (0x180, 7) ∧
      q.stake = none := ⟨_, rfl, rfl, rfl⟩
  have hworld : voteReverted.world = oneCandidate.world.put 1 q := by
    funext b
    by_cases hb : b = 1
    · rw [hb, hq, put_self]
    · rw [world_voteReverted hb, put_of_ne _ _ hb]
  have hbefore := votesFor_oneCandidate
  rw [votesFor_eq_received] at hbefore ⊢
  rw [hworld, ballots_put_voter ho (hstake'.trans hstake.symm), Ballots.received_update, hbefore,
    cast_of_some ho, hnone, hvotes]
  decide

/-- Account `1` registers an Authorize account and votes seven for it.  The vote is reverted: it is
no longer in the total, but the account still has it. -/
theorem revert_breaks_ledger : ∃ s' o,
    (Trace.act (.submit registerFifty) (.scope (.act (.submit voteSevenFor) .nil) true .nil)).run
      (poolStore plainExternals) oneAccount = some s' ∧
    s'.world 0x180 = some o ∧ o.accountType = .authorize ∧ s'.world.votesFor 0x180 = 7 ∧
    ¬ ∃ pledge, o.authorizeAccount.pledgeValue = some pledge ∧
      o.authorizeAccount.voteValue = some (pledge + s'.world.votesFor 0x180) := by
  have hrun :
      (Trace.act (.submit registerFifty) (.scope (.act (.submit voteSevenFor) .nil) true .nil)).run
      (poolStore plainExternals) oneAccount = some voteReverted := by
    refine bind_eq_some_iff.mpr ⟨oneCandidate, step_registerFifty, ?_⟩
    refine bind_eq_some_iff.mpr ⟨voteTaken, ?_, ?_⟩
    · exact bind_eq_some_iff.mpr ⟨voteTaken, step_voteSevenFor, rfl⟩
    · exact bind_eq_some_iff.mpr ⟨voteReverted, revertToSnapshot_voteTaken, rfl⟩
  refine ⟨voteReverted, _, hrun, rfl, rfl, votesFor_voteReverted, ?_⟩
  rintro ⟨pledge, hpledge, htotal⟩
  obtain rfl : (50 : Int) = pledge := some.inj hpledge
  have hsum : (50 : Int) = 50 + voteReverted.world.votesFor 0x180 := some.inj htotal
  rw [votesFor_voteReverted] at hsum
  cases hsum

end ProbeChain
