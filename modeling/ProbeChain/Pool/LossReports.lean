/-
# Loss reports in every state the pool leads to

In every state that is reached by transactions the pool accepts on the state they are executed on, a
lost account should be named by a report that has been revealed; the state of a report should only
go forward; and the balance of a lost account should be moved only when the period of its loss type
has passed.

All of it holds of transactions that run no code (`loss_protocol`).  It fails for contracts: on the
Shenzhen fork a contract that calls a reserved address runs the operation behind it on the data of
the transaction, and the pool has checked nothing but the contract.  `lost_balance_moved_early`
takes over an account one block after it has been reported.
-/
import ProbeChain.Pool.Inclusion
import ProbeChain.Pool.LossOperations

namespace ProbeChain

open Check Evm Files StateObject Option

/-! ## 1. What the pool checks -/

theorem firstList_of_splitList {data payload : Bytes} (h : Rlp.splitList data = some payload) :
    firstList data = some payload := by
  unfold Rlp.splitList at h
  unfold firstList
  split at h
  next hsplit =>
    rw [hsplit]
    exact h
  · cases h

/-- What the pool reads is what the operation reads. -/
theorem decodeRegisterLossIgnoringError_eq {data : Bytes} {d : RegisterLossDecodeType}
    (h : decodeRegisterLoss data = some d) : decodeRegisterLossIgnoringError data = d := by
  obtain ⟨payload, hpayload, h⟩ := bind_eq_some_iff.mp h
  obtain ⟨⟨lastBitsMark, rest⟩, hbits, h⟩ := bind_eq_some_iff.mp h
  obtain ⟨⟨infoDigest, rest'⟩, hdigest, h⟩ := bind_eq_some_iff.mp h
  unfold decodeRegisterLossIgnoringError
  dsimp only at hbits hdigest h
  rw [firstList_of_splitList hpayload, bind_some, hbits]
  dsimp only
  rw [hdigest]
  unfold readEnd at h
  split at h
  · exact some.inj h
  · cases h

namespace Pool

variable {X : Externals} {pool : Pool} {tx : Transaction} {sender : Address}

theorem papers_of_object {a : Address} {o : StateObject} (ho : pool.getStateObject a = some o) :
    pool.currentState.world.papers a = o.papers :=
  World.papers_of_some ho

theorem report_of_object {a : Address} {o : StateObject} (ho : pool.getStateObject a = some o)
    (htype : o.accountType = .loss) :
    (pool.currentState.world.papers a).report = some o.lossAccount := by
  rw [papers_of_object ho]
  exact if_pos htype

/-- A report is registered where there is nothing, and for a mark that is free. -/
theorem licensed_registerLose (h : pool.validateTxOfRegister X tx sender .registerLose = .ok ()) :
    pool.currentState.world (createAddress X sender tx.nonce) = none ∧
      (pool.currentState.world markAddress = none ∨
        (pool.currentState.world.papers markAddress).mark.isSome) ∧
      pool.currentState.world.papers.marks.getMark
        ((decodeRegisterLossIgnoringError tx.data).lastBitsMark.toNat % 1024) = false := by
  obtain ⟨hnone, d, hd, hmark⟩ := free_of_registerLose h
  rw [canLossMark, require_bind_eq_ok, require_eq_ok] at hmark
  obtain ⟨htype, hmark⟩ := hmark
  rw [decodeRegisterLossIgnoringError_eq hd]
  refine ⟨hnone, ?_⟩
  cases ho : pool.currentState.world markAddress with
  | none =>
    refine ⟨.inl rfl, ?_⟩
    rw [marks, World.papers_of_none ho]
    exact LossMark.getMark_zero _
  | some o =>
    have hget : pool.getStateObject specialAddressForRegisterLose = some o := ho
    rw [hget, getD_some] at htype hmark
    have hvalue : o.papers.mark = some o.lossMarkAccount.lossMark := if_pos htype
    rw [marks, World.papers_of_some ho, hvalue]
    exact ⟨.inr rfl, hmark⟩

theorem licensed_cancellation (h : pool.validateTxOfCancellation tx sender = .ok ())
    {d : CancellationDecodeType} (hd : decodeCancellation tx.data = some d) :
    (pool.currentState.world.papers d.cancelAddress).report = none ∧
      (pool.currentState.world.papers d.cancelAddress).mark = none := by
  obtain ⟨d', hd', o, ho, -, -, -, hcancel⟩ := validateTxOfCancellation_eq_ok.mp h
  cases hd'.symm.trans hd
  have htype : o.accountType ≠ .loss ∧ o.accountType ≠ .lossMark := by
    unfold validateCancelled at hcancel
    constructor <;> intro ht <;> rw [ht] at hcancel <;> cases hcancel
  rw [papers_of_object ho]
  exact ⟨if_neg htype.1, if_neg htype.2⟩

theorem licensed_revealLossReport (h : pool.validateTxOfRevealLossReport X tx = .ok ()) :
    ∃ d, decodeRevealLossReport tx.data = some d ∧
    pool.currentState.world.HasReport d.lossAccount .apply ∧
      (∃ o, pool.currentState.world d.oldAccount = some o ∧ o.accountType = .regular) ∧
      (pool.currentState.world.papers d.oldAccount).lost = false := by
  simp only [validateTxOfRevealLossReport, deref, getOr_bind_eq_ok, require_bind_eq_ok] at h
  obtain ⟨d, hd, loss, hloss, htype, hstate, mark, -, bits, -, -, -, old, hold, hregular, -,
      hlost, -⟩ := h
  refine ⟨d, hd, ⟨loss.lossAccount, report_of_object hloss htype, hstate⟩,
    ⟨old, hold, hregular⟩, ?_⟩
  rw [papers_of_object hold]
  simp [papers, hlost]

theorem licensed_transferLostAccount (h : pool.validateTxOfTransferLostAccount tx = .ok ()) :
    ∃ r, decodeAddress tx.data = some r ∧ pool.currentState.world.HasReport r .reveal := by
  simp only [validateTxOfTransferLostAccount, getOr_bind_eq_ok, require_bind_eq_ok] at h
  obtain ⟨r, hd, loss, hloss, htype, hstate, -⟩ := h
  exact ⟨r, hd, loss.lossAccount, report_of_object hloss htype, hstate⟩

theorem licensed_removeLossReport (h : pool.validateTxOfRemoveLossReport tx = .ok ()) :
    ∃ r, decodeAddress tx.data = some r ∧ pool.currentState.world.HasReport r .apply := by
  simp only [validateTxOfRemoveLossReport, getOr_bind_eq_ok, require_bind_eq_ok] at h
  obtain ⟨r, hd, loss, hloss, htype, hstate, -⟩ := h
  exact ⟨r, hd, loss.lossAccount, report_of_object hloss htype, hstate⟩

/-- The type is not checked, but only a report is ever revealed. -/
theorem licensed_rejectLossReport (hstray : ∀ a, ¬ (pool.currentState.world.papers a).stray)
    (h : pool.validateTxOfRejectLossReport tx sender = .ok ()) :
    ∃ r l, decodeAddress tx.data = some r ∧ (pool.currentState.world.papers r).report = some l ∧
      l.state = .reveal ∧ l.lostAccount = sender := by
  simp only [validateTxOfRejectLossReport, getOr_bind_eq_ok, require_bind_eq_ok, require_eq_ok] at h
  obtain ⟨r, hd, loss, hloss, hstate, hsender⟩ := h
  have htype : loss.accountType = .loss := by
    refine type_of_state (fun hs => hstray r ?_) (by rw [hstate]; rintro ⟨⟩)
    rw [papers_of_object hloss]
    exact hs
  exact ⟨r, loss.lossAccount, hd, report_of_object hloss htype, hstate, hsender.symm⟩

/-- **What the pool accepts is licensed.** -/
theorem licensed_of_validateOperation (htidy : pool.currentState.world.papers.Tidy) {dest : Address}
    (h : pool.validateOperation X tx sender dest = .ok ()) (E : Env) (baseFee : Option Nat) :
    pool.currentState.world.Licensed X ((tx.asMessage sender baseFee).context E dest) := by
  have hto : ((tx.asMessage sender baseFee).context E dest).toAddr = some dest := rfl
  unfold validateOperation at h
  rw [World.Licensed, hto, map_some]
  cases hop : operationOf dest <;> rw [hop] at h <;> dsimp only at h ⊢ <;> try trivial
  case registerPns => exact World.papers_of_none (free_of_registerPns h)
  case registerAuthorize => exact World.papers_of_none (free_of_registerAuthorize h)
  case registerLose =>
    obtain ⟨hnone, hplace, hmark⟩ := licensed_registerLose h
    exact ⟨World.papers_of_none hnone, hplace, hmark⟩
  case cancellation => exact fun d hd => licensed_cancellation h hd
  case cancellationLostAccount =>
    obtain ⟨r, hd, loss, hloss, htype, hstate⟩ := validateTxOfCancellationLossAccount_eq_ok.mp h
    exact ⟨r, hd, loss.lossAccount, report_of_object hloss htype, hstate⟩
  case revealLossReport => exact licensed_revealLossReport h
  case transferLostAccountBalance => exact licensed_transferLostAccount h
  case removeLossReport => exact licensed_removeLossReport h
  case rejectLossReport => exact licensed_rejectLossReport htidy.stray h

end Pool

/-! ## 2. One transaction -/

namespace World

variable {X : Externals} {w w' : World} {ctx : TxContext}

/-- A licence is about the papers, the types of the accounts and what is missing. -/
theorem Licensed.congr (h : w.Licensed X ctx) (hpapers : w'.papers = w.papers)
    (hnone : ∀ a, w a = none → w' a = none)
    (htype : ∀ a o, w a = some o → ∃ o', w' a = some o' ∧ o'.accountType = o.accountType) :
    w'.Licensed X ctx := by
  unfold Licensed HasReport at h ⊢
  rw [hpapers]
  split at h
  case h_3 =>
    obtain ⟨hfree, hplace, hmark⟩ := h
    exact ⟨hfree, hplace.imp_left (hnone markAddress), hmark⟩
  case h_5 =>
    obtain ⟨d, hd, hreport, ⟨o, ho, hregular⟩, hlost⟩ := h
    obtain ⟨o', ho', heq⟩ := htype d.oldAccount o ho
    exact ⟨d, hd, hreport, ⟨o', ho', heq.trans hregular⟩, hlost⟩
  all_goals exact h

theorem Uncollided.congr (h : w.Uncollided X ctx) (hpapers : w'.papers = w.papers) :
    w'.Uncollided X ctx := by
  unfold Uncollided at h ⊢
  rw [hpapers]
  exact h

end World

theorem StateObject.setNonce_accountType (o : StateObject) (n : UInt64) :
    (o.setNonce n).accountType = o.accountType := by
  unfold setNonce
  split <;> rfl

namespace Evm.Execution

variable {x : Execution} {s : StateDB}

theorem world_prepared (x : Execution) (s : StateDB) :
    (x.prepared s).world = (s.world.credit x.msg.fromAddr (-mgval x.msg)).setNonce x.msg.fromAddr
      ((s.subBalance x.msg.fromAddr (mgval x.msg)).getNonce x.msg.fromAddr + 1) := by
  have hsnapshot (s : StateDB) : s.snapshot.1.world = s.world := rfl
  rw [prepared, hsnapshot, StateDB.world_setNonce, StateDB.world_subBalance]

theorem papers_prepared (x : Execution) (s : StateDB) :
    (x.prepared s).world.papers = s.world.papers := by
  rw [world_prepared, World.papers_setNonce_world, World.papers_credit]

/-- Buying gas and increasing the nonce changes only these two of the sender. -/
theorem map_prepared {β : Type} (g : StateObject → β) (hbalance : ∀ o v, g (o.setBalance v) = g o)
    (hnonce : ∀ o n, g (o.setNonce n) = g o) {q : StateObject}
    (hsender : s.world x.msg.fromAddr = some q) (a : Address) :
    ((x.prepared s).world a).map g = (s.world a).map g := by
  rw [world_prepared]
  obtain ⟨v, hv⟩ := World.credit_of_some hsender x.msg.fromAddr (-mgval x.msg)
  rw [World.setNonce, World.map_put_of_some g hv (by rw [hv]; exact hnonce _ _), World.credit,
    World.map_put_of_some g hsender]
  rw [credited, hsender, getD_some, hbalance]

theorem papers_settled (x : Execution) (db : StateDB) (gas : UInt64) (tip : Int) :
    (x.settled db gas tip).world.papers = db.world.papers := by
  rw [settled, StateDB.world_addBalance, StateDB.world_addBalance, World.papers_credit,
    World.papers_credit]

theorem dirties_settled (x : Execution) {db : StateDB} {a : Address} (ha : a ∈ db.dirties)
    (gas : UInt64) (tip : Int) : a ∈ (x.settled db gas tip).dirties :=
  dirties_actionStep (X := x.env.X)
    (a := .op (.addBalance x.env.coinbase (x.fee db gas tip))) trivial rfl
    (dirties_actionStep (X := x.env.X)
      (a := .op (.addBalance x.msg.fromAddr (x.refund db gas))) trivial rfl ha)

end Evm.Execution

namespace Inclusion

variable {x : Inclusion} {s t : StateDB} {sender dest : Address}

/-- What `CallDB` is given for the transaction. -/
def context (x : Inclusion) (sender dest : Address) : TxContext :=
  (x.tx.asMessage sender x.env.baseFee).context x.env.toEnv dest

/-- No code is run. -/
def Direct (x : Inclusion) (s : StateDB) (sender dest : Address) : Prop :=
  x.tx.sender = some sender ∧ (x.execution sender).Direct s dest

/-- What the checks of the pool say of the sender and of the operation. -/
theorem Accepted.checked (h : x.Accepted s) (hdirect : x.Direct s sender dest) :
    (∃ q, s.world sender = some q ∧ q.accountType = .regular) ∧
      ({ x.pool with currentState := s } : Pool).validateOperation x.env.X x.tx sender dest =
        .ok () := by
  obtain ⟨sender', hsender, hop⟩ := Pool.validateTx_eq_ok h.1
  obtain rfl : sender' = sender := by
    have heq := (Pool.validateSender_eq_ok hsender).symm.trans hdirect.1
    exact some.inj heq
  exact ⟨Pool.regular_of_validateSender hsender, hop dest hdirect.2.toAddr⟩

theorem Accepted.licensed (h : x.Accepted s) (hdirect : x.Direct s sender dest)
    (htidy : s.world.papers.Tidy) :
    ((x.execution sender).prepared s).world.Licensed x.env.X (x.context sender dest) := by
  obtain ⟨⟨q, hq, -⟩, hop⟩ := h.checked hdirect
  have hlicensed := Pool.licensed_of_validateOperation htidy hop x.env.toEnv x.env.baseFee
  have htype := Execution.map_prepared (x := x.execution sender) accountType setBalance_accountType
    setNonce_accountType hq
  refine hlicensed.congr (Execution.papers_prepared _ s) (fun a ha => ?_) fun a o ha => ?_
  · have hmap := htype a
    rw [show s.world a = none from ha] at hmap
    exact map_eq_none_iff.mp hmap
  · have hmap := htype a
    rw [show s.world a = some o from ha] at hmap
    obtain ⟨o', ho', heq⟩ := map_eq_some_iff.mp hmap
    exact ⟨o', ho', heq⟩

/-- **A transaction that runs no code is an event of the protocol.** -/
theorem step_apply (haccepted : x.Accepted s) (hdirect : x.Direct s sender dest)
    (htidy : s.world.papers.Tidy) (huncollided : s.world.Uncollided x.env.X (x.context sender dest))
    (ht : x.apply s = some t) :
    s.world.papers.docket.Step
        (lossEvent x.env.X ((x.execution sender).prepared s).world (x.context sender dest))
        t.world.papers.docket ∧
      t.world.papers.Tidy := by
  rw [apply, hdirect.1, bind_some] at ht
  obtain ⟨r, result, hr, hok, rfl⟩ := Execution.apply_eq_some.mp ht
  obtain ⟨db, gas, tip, hcall, -, -, hsettled, -⟩ := Execution.run_of_direct hdirect.2 hr hok
  have hpapers := Execution.papers_prepared (x.execution sender) s
  have hprepared : ((x.execution sender).prepared s).world.papers.Tidy := by
    rw [hpapers]
    exact htidy
  have hlicensed := haccepted.licensed hdirect htidy
  have hproceeds :=
    World.proceeds_callDB hprepared hlicensed (huncollided.congr hpapers) (world_callDB hcall)
  have hfiled : r.machine.db.world.filed = db.world.filed := by
    rw [hsettled]
    exact World.filed_of_papers_eq (Execution.papers_settled _ db gas tip)
  have hfinal : r.machine.db.finalise.world.papers = db.world.filed := by
    rw [StateDB.papers_finalise, hfiled]
    · intro a ha
      rw [hsettled] at ha ⊢
      rw [Execution.papers_settled] at ha
      exact Execution.dirties_settled _
        (StateDB.mem_dirties_of_papers hprepared hlicensed hcall ha) gas tip
    · intro a
      rw [hfiled]
      exact hproceeds.2.stray a
  rw [hfinal]
  rw [World.Proceeds, hpapers] at hproceeds
  exact hproceeds

end Inclusion

/-! ## 3. In time -/

/-- The call moves the balance of a lost account. -/
def Action.TransfersLost : Action → Prop
  | .hook _ _ _ ctx => ctx.toAddr.map operationOf = some .transferLostAccountBalance
  | _ => False

/-- It does so after the period of the loss type of the lost account. -/
def Action.Punctual (number : Nat) (s : StateDB) (a : Action) : Prop :=
  a.TransfersLost → ∀ caller dest value ctx, a = .hook caller dest value ctx →
    ∀ r loss lost, decodeAddress ctx.data = some r → s.world r = some loss →
      s.world loss.lossAccount.lostAccount = some lost →
        ∃ height, loss.lossAccount.height = some height ∧
          (lost.regularAccount.lossType.getType.toNat * 172800 : Int) ≤ number - height

theorem Pool.punctual_of_validateTx {pool : Pool} {tx : Transaction}
    (h : pool.validateTxOfTransferLostAccount tx = .ok ()) {r : Address} {loss lost : StateObject}
    (hd : decodeAddress tx.data = some r) (hloss : pool.currentState.world r = some loss)
    (hlost : pool.currentState.world loss.lossAccount.lostAccount = some lost) :
    ∃ height, loss.lossAccount.height = some height ∧
      (lost.regularAccount.lossType.getType.toNat * 172800 : Int) ≤
        pool.currentNumber - height := by
  simp only [validateTxOfTransferLostAccount, deref, getOr_bind_eq_ok, require_bind_eq_ok,
    require_eq_ok] at h
  obtain ⟨r', hd', loss', hloss', -, -, lost', hlost', -, -, height, hheight, hperiod⟩ := h
  cases hd'.symm.trans hd
  cases hloss'.symm.trans hloss
  cases hlost'.symm.trans hlost
  exact ⟨height, hheight, hperiod⟩

namespace Inclusion

variable {x : Inclusion} {s t : StateDB} {sender dest : Address}

/-- Everything the transaction does is in time. -/
def Punctual (x : Inclusion) (s : StateDB) : Prop :=
  ∀ sender r result, x.tx.sender = some sender → (x.execution sender).run s = some r →
    r.value = .ok result → r.trace.Each (evmStore x.env.X) (Action.Punctual x.env.blockNumber) s

theorem punctual_of_direct (haccepted : x.Accepted s) (hdirect : x.Direct s sender dest) :
    x.Punctual s := by
  intro sender' r result hsender hr hok
  cases hdirect.1.symm.trans hsender
  obtain ⟨db, gas, tip, -, -, -, -, htrace⟩ := Execution.run_of_direct hdirect.2 hr hok
  obtain ⟨⟨q, hq, -⟩, hop⟩ := haccepted.checked hdirect
  have hhook : Action.Punctual x.env.blockNumber ((x.execution sender).prepared s)
      (.hook sender dest x.tx.value.toNat (x.context sender dest)) := by
    rintro htransfers _ _ _ _ ⟨⟩ a loss lost hd hloss hlost
    have hdest : operationOf dest = .transferLostAccountBalance := some.inj htransfers
    rw [Pool.validateOperation, hdest] at hop
    -- the accounts as the pool has seen them
    have hsame :=
      Execution.map_prepared (x := x.execution sender) lossAccount setBalance_lossAccount
      (fun o n => by unfold setNonce; split <;> rfl) hq a
    have htype := Execution.map_prepared (x := x.execution sender) (·.regularAccount.lossType)
      (fun o v => by unfold setBalance; split <;> rfl)
        (fun o n => by unfold setNonce; split <;> rfl) hq
      loss.lossAccount.lostAccount
    rw [hloss, map_some] at hsame
    rw [hlost, map_some] at htype
    obtain ⟨loss', hloss', hrecord⟩ := map_eq_some_iff.mp hsame.symm
    obtain ⟨lost', hlost', hlossType⟩ := map_eq_some_iff.mp htype.symm
    rw [← hrecord] at hlost'
    obtain ⟨height, hheight, hperiod⟩ := Pool.punctual_of_validateTx hop hd hloss' hlost'
    refine ⟨height, hrecord ▸ hheight, ?_⟩
    have hnumber := haccepted.2
    rw [← hlossType]
    exact hperiod.trans (by show (x.pool.currentNumber : Int) - height ≤ _; omega)
  rw [htrace]
  refine ⟨fun h => h.elim, ?_⟩
  rintro _ ⟨⟩
  refine ⟨fun h => h.elim, ?_⟩
  rintro _ ⟨⟩
  refine ⟨⟨hhook, fun _ _ => trivial⟩, fun t u _ _ => ?_⟩
  refine ⟨fun h => h.elim, ?_⟩
  rintro _ ⟨⟩
  exact ⟨fun h => h.elim, fun _ _ => trivial⟩

/-! ## 4. Runs -/

/-- **What the code that a transaction runs must not do**: change what concerns loss reports, or
move the balance of a lost account. -/
structure Aloof (x : Inclusion) (s : StateDB) : Prop where
  papers : ∀ t, x.apply s = some t → t.world.papers = s.world.papers
  calls : ∀ sender r result, x.tx.sender = some sender → (x.execution sender).run s = some r →
    r.value = .ok result → r.trace.Each (evmStore x.env.X) (fun _ a => ¬ a.TransfersLost) s

/-- A transaction that the pool accepts, and that runs no code or code that leaves loss reports
alone. -/
def Orderly (x : Inclusion) (s : StateDB) : Prop :=
  x.Accepted s ∧ ((∃ sender dest, x.Direct s sender dest ∧
    s.world.Uncollided x.env.X (x.context sender dest)) ∨ x.Aloof s)

/-- One transaction: nothing, or an event. -/
theorem Orderly.step (h : x.Orderly s) (htidy : s.world.papers.Tidy) (ht : x.apply s = some t) :
    (∃ e, s.world.papers.docket.Step e t.world.papers.docket) ∧ t.world.papers.Tidy := by
  obtain ⟨haccepted, ⟨sender, dest, hdirect, huncollided⟩ | haloof⟩ := h
  · obtain ⟨hstep, htidy'⟩ := step_apply haccepted hdirect htidy huncollided ht
    exact ⟨⟨_, hstep⟩, htidy'⟩
  · rw [haloof.papers t ht]
    exact ⟨⟨_, .idle _⟩, htidy⟩

theorem Orderly.punctual (h : x.Orderly s) : x.Punctual s := by
  obtain ⟨haccepted, ⟨sender, dest, hdirect, -⟩ | haloof⟩ := h
  · exact punctual_of_direct haccepted hdirect
  · intro sender r result hsender hr hok
    exact (haloof.calls sender r result hsender hr hok).mono fun _ a ha htransfers =>
      absurd htransfers ha

end Inclusion

namespace ChainStep

variable {y : ChainStep} {s t : StateDB}

def Orderly (s : StateDB) : ChainStep → Prop
  | .transaction x => x.Orderly s
  | .nextBlock => True

variable (h : y.Orderly s) (htidy : s.world.papers.Tidy) (ht : apply s y = some t)
include h htidy ht

/-- One step of the chain: an event, or everything is read again. -/
theorem Orderly.step :
    ((∃ e, s.world.papers.docket.Step e t.world.papers.docket) ∨
        t.world.papers.docket = s.world.papers.docket.reread) ∧
      t.world.papers.Tidy := by
  cases y with
  | transaction x =>
    obtain ⟨hstep, htidy'⟩ := Inclusion.Orderly.step h htidy ht
    exact ⟨.inl hstep, htidy'⟩
  | nextBlock =>
    obtain rfl := some.inj ht
    rw [World.papers_ofTrie]
    exact ⟨.inr (docket_reread _), htidy.reread⟩

/-- What is to hold between two steps. -/
theorem Orderly.named (hnamed : s.world.papers.docket.Named) :
    t.world.papers.Tidy ∧ t.world.papers.docket.Named := by
  obtain ⟨⟨e, hstep⟩ | hreread, htidy'⟩ := h.step htidy ht
  · exact ⟨htidy', Docket.named_step hnamed hstep⟩
  · rw [hreread]
    exact ⟨htidy', hnamed.reread⟩

theorem Orderly.forward {r : Address}
    {loss loss' : StateObject} (hloss : s.world r = some loss) (htype : loss.accountType = .loss)
    (hloss' : t.world r = some loss') (htype' : loss'.accountType = .loss) :
    loss.lossAccount.state.Forward loss'.lossAccount.state := by
  have hreport : s.world.papers.docket.reports r = some loss.lossAccount := by
    show (s.world.papers r).report = _
    rw [World.papers_of_some hloss]
    exact if_pos htype
  have hreport' : t.world.papers.docket.reports r = some loss'.lossAccount := by
    show (t.world.papers r).report = _
    rw [World.papers_of_some hloss']
    exact if_pos htype'
  obtain ⟨⟨e, hstep⟩ | hreread, -⟩ := h.step htidy ht
  · exact Docket.forward_step hstep hreport hreport'
  · rw [hreread] at hreport'
    exact Docket.forward_reread hreport hreport'

end ChainStep

theorem ungiven_papers : Ungiven papers {} where
  toCashless := remote_papers.toCashless
  code _ _ _ := rfl
  nonce := papers_setNonce
  storage _ _ _ := rfl
  validatorList _ _ := rfl
  contract := papers_new (by decide) (by decide)
  dpos := papers_new (by decide) (by decide)
  finalise _ := rfl

/-- There are no reports in the genesis block. -/
theorem papers_genesisState (X : Externals) (pob : Bool) (alloc : List (Address × GenesisAccount)) :
    (genesisState X pob alloc).world.papers = fun _ => {} :=
  view_genesisState ungiven_papers X pob alloc

theorem Files.tidy_empty : Files.Tidy fun _ => {} where
  closing _ := rfl
  stray _ := not_false
  place _ h := by cases h
  apart _ _ h := by cases h
  named _ _ h := by cases h

theorem Files.named_empty : (docket fun _ => {}).Named := by
  intro a ha
  cases ha

/-- **The loss report protocol.**  In every state of an orderly chain an account that is flagged as
lost is named by a report that has been revealed.  With the next step a report goes forward by at
most one state, and the balance of a lost account is moved only after the period of its loss
type. -/
theorem loss_protocol (X : Externals) (pob : Bool) (alloc : List (Address × GenesisAccount))
    {ys : List ChainStep} {s : StateDB}
    (hsteps : Run.Along ChainStep.apply ChainStep.Orderly ys (genesisState X pob alloc))
    (hrun : Run.run ChainStep.apply ys (genesisState X pob alloc) = some s) :
    (∀ a o, s.world a = some o → o.accountType = .regular →
      o.regularAccount.lossType.getState = true → ∃ r loss, s.world r = some loss ∧
      loss.accountType = .loss ∧ loss.lossAccount.lostAccount = a ∧
        (loss.lossAccount.state = .reveal ∨ loss.lossAccount.state = .success)) ∧
    ∀ y, ChainStep.Orderly s y →
      (∀ x, y = .transaction x → x.Punctual s) ∧
      ∀ t, y.apply s = some t → ∀ r loss loss', s.world r = some loss → loss.accountType = .loss →
        t.world r = some loss' → loss'.accountType = .loss →
        loss.lossAccount.state.Forward loss'.lossAccount.state := by
  have hinv : s.world.papers.Tidy ∧ s.world.papers.docket.Named := by
    refine Run.run_inv (I := fun s => s.world.papers.Tidy ∧ s.world.papers.docket.Named)
      (fun hI hy ht => hy.named hI.1 ht hI.2) ?_ hsteps hrun
    rw [papers_genesisState]
    exact ⟨Files.tidy_empty, Files.named_empty⟩
  obtain ⟨htidy, hnamed⟩ := hinv
  refine ⟨fun a o ho htype hlost => ?_, fun y hy =>
    ⟨?_, fun t ht r loss loss' => hy.forward htidy ht⟩⟩
  · have hflag : s.world.papers.docket.lost a = true := by
      show (s.world.papers a).lost = true
      rw [World.papers_of_some ho]
      simp [StateObject.papers, htype, hlost]
    obtain ⟨r, l, hl, hname, hstate⟩ := hnamed a hflag
    obtain ⟨loss, hloss, hlosstype, rfl⟩ := World.exists_of_report hl
    refine ⟨r, loss, hloss, hlosstype, hname, ?_⟩
    cases hs : loss.lossAccount.state with
    | apply => exact absurd hs hstate
    | reveal => exact .inl rfl
    | success => exact .inr rfl
  · rintro x rfl
    exact Inclusion.Orderly.punctual hy

/-! ## 5. Account `0x401` is reported as lost -/

/-- Three accounts and a contract. -/
def lossGenesis : StateDB :=
  genesisState plainExternals false
    [(0x401, { balance := 3000000000000000000 }), (0x402, { balance := 10 }),
      (0x500, { balance := 900000000000000000000000 }), (0x600, { balance := 0, code := [1] })]

/-- A transaction in block `number`; the pool has seen the block before. -/
def sent (number : Nat) (sender : Address) (nonce : UInt64) (dest : Address) (value : Int)
    (data : Bytes) (code : Code) : Inclusion where
  pool :=
    { currentState := .ofAccounts [], currentNumber := number - 1, currentMaxGas := 8000000,
      gasPrice := 1, eip2718 := true, eip1559 := true, istanbul := true }
  tx :=
    { sender := some sender, toAddr := some dest, nonce := nonce, value := value, gas := 100000,
      gasPrice := 1, gasFeeCap := 1, gasTipCap := 1, data := data }
  env := { X := plainExternals, blockNumber := number }
  code := code

/-- Account `0x500` reports an account whose last bits are `1`. -/
def reporting : Inclusion :=
  sent 1 0x500 0 0x103 0 (Rlp.encodeList (Rlp.encodeString [1] ++ Rlp.encodeString (Hash.bytes
    (bytesToHash (Address.bytes 0x401 ++ Address.bytes 0x402 ++ [7]))))) (.halt [] 0 none)

def reportAddress : Address := createAddress plainExternals 0x500 0

/-- Account `0x401` has the shortest period, 172800 blocks. -/
def settingLossType : Inclusion :=
  sent 2 0x401 0 0x115 0 (Rlp.encodeList (Rlp.encodeString [1])) (.halt [] 0 none)

/-- It is account `0x401` that is lost, and `0x402` that is to have its balance. -/
def revealing : Inclusion :=
  sent 3 0x500 1 0x109 1000000000000000000
    (Rlp.encodeList (Rlp.encodeString (Address.bytes reportAddress) ++
    Rlp.encodeString (Address.bytes 0x401) ++ Rlp.encodeString (Address.bytes 0x402) ++
    Rlp.encodeString [7])) (.halt [] 0 none)

/-- The contract is called, and calls the address for the transfer of lost balances. -/
def takingOver : Inclusion :=
  sent 4 0x500 2 0x600 0 (Rlp.encodeList (Rlp.encodeString (Address.bytes reportAddress)))
    (.invoke (.call 0x110 [] 1000 0) (.halt [] 0 none) (.halt [] 0 none))

def reported : List ChainStep :=
  [.nextBlock, .transaction reporting, .nextBlock, .transaction settingLossType, .nextBlock,
    .transaction revealing, .nextBlock]

theorem sent_orderly {number : Nat} {sender dest : Address} {nonce : UInt64} {value : Int}
    {data : Bytes} {code : Code} {s : StateDB}
    (haccepted : (sent number sender nonce dest value data code).Accepted s)
    (hcode : s.getCode dest = []) (huncollided : operationOf dest = .registerLose →
      s.world.Uncollided plainExternals
        ((sent number sender nonce dest value data code).context sender dest)) :
    ChainStep.Orderly s (.transaction (sent number sender nonce dest value data code)) := by
  refine ⟨haccepted, .inl ⟨sender, dest, ⟨rfl, rfl, rfl, hcode⟩, ?_⟩⟩
  by_cases hop : operationOf dest = .registerLose
  · exact huncollided hop
  · exact fun h => absurd (some.inj h) hop

theorem reported_orderly : Run.Along ChainStep.apply ChainStep.Orderly reported lossGenesis := by
  have hall : Run.Along ChainStep.apply
      (fun s y => y.Accepted s ∧ s.getCode 0x103 = [] ∧ s.getCode 0x109 = [] ∧ s.getCode 0x115 = [])
      reported lossGenesis := by decide +kernel
  have hno {dest : Address} {p : Prop} (h : operationOf dest ≠ .registerLose) :
      operationOf dest = .registerLose → p := fun hop => absurd hop h
  obtain ⟨-, h⟩ := hall
  refine ⟨trivial, fun s₁ hs₁ => ?_⟩
  obtain ⟨⟨haccepted, hcode⟩, h⟩ := h s₁ hs₁
  refine ⟨sent_orderly haccepted hcode.1 fun _ _ => ⟨by decide +kernel, ?_⟩, fun s₂ hs₂ => ?_⟩
  · -- there is no report yet
    obtain rfl := some.inj hs₁
    intro r l hr
    rw [World.papers_ofTrie, lossGenesis, papers_genesisState] at hr
    cases hr
  obtain ⟨-, h⟩ := h s₂ hs₂
  refine ⟨trivial, fun s₃ hs₃ => ?_⟩
  obtain ⟨⟨haccepted, hcode⟩, h⟩ := h s₃ hs₃
  refine ⟨sent_orderly haccepted hcode.2.2 (hno (by decide)), fun s₄ hs₄ => ?_⟩
  obtain ⟨-, h⟩ := h s₄ hs₄
  refine ⟨trivial, fun s₅ hs₅ => ?_⟩
  obtain ⟨⟨haccepted, hcode⟩, h⟩ := h s₅ hs₅
  refine ⟨sent_orderly haccepted hcode.2.1 (hno (by decide)), fun s₆ hs₆ => ?_⟩
  exact ⟨trivial, fun _ _ => trivial⟩

/-- The report is revealed and names the account. -/
theorem loss_protocol_reported :
    ∃ s, Run.run ChainStep.apply reported lossGenesis = some s ∧
      ∃ r loss, s.world r = some loss ∧ loss.accountType = .loss ∧
      loss.lossAccount.lostAccount = 0x401 ∧
        (loss.lossAccount.state = .reveal ∨ loss.lossAccount.state = .success) := by
  have hflag : (Run.run ChainStep.apply reported lossGenesis).map (fun s =>
      (s.world 0x401).map fun o => (o.accountType, o.regularAccount.lossType.getState)) =
      some (some (.regular, true)) := by decide +kernel
  obtain ⟨s, hs, h⟩ := map_eq_some_iff.mp hflag
  obtain ⟨o, ho, h⟩ := map_eq_some_iff.mp h
  obtain ⟨htype, hlost⟩ := Prod.mk.inj h
  exact ⟨s, hs, (loss_protocol plainExternals false _ reported_orderly hs).1 0x401 o ho htype hlost⟩

/-- **The balance is moved one block after the report has been revealed**, although every
transaction passes the checks of the pool. -/
theorem lost_balance_moved_early :
    Run.Along ChainStep.apply ChainStep.Accepted
      (reported ++ [.transaction takingOver]) lossGenesis ∧
    ∃ s t, Run.run ChainStep.apply reported lossGenesis = some s ∧ takingOver.apply s = some t ∧
      (s.world reportAddress).map (·.lossAccount.height) = some (some 3) ∧
      takingOver.env.blockNumber = 4 ∧
      (s.world 0x401).map (·.regularAccount.lossType.getType) = some 1 ∧
      s.getBalance 0x401 = 3999999999999978968 ∧ t.getBalance 0x401 = 0 := by
  refine ⟨by decide +kernel, ?_⟩
  have hfacts : ((Run.run ChainStep.apply reported lossGenesis).bind fun s =>
      (takingOver.apply s).map fun t => ((s.world reportAddress).map (·.lossAccount.height),
        (s.world 0x401).map (·.regularAccount.lossType.getType), s.getBalance 0x401,
        t.getBalance 0x401)) =
      some (some (some 3), some 1, 3999999999999978968, 0) := by decide +kernel
  obtain ⟨s, hs, h⟩ := bind_eq_some_iff.mp hfacts
  obtain ⟨t, ht, h⟩ := map_eq_some_iff.mp h
  obtain ⟨hheight, htype, hbefore, hafter⟩ := by simpa only [Prod.mk.injEq] using h
  exact ⟨s, t, hs, ht, hheight, rfl, htype, hbefore, hafter⟩

end ProbeChain
