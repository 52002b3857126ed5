/-
# Whether execution repeats the checks of the pool

Who may change the owner of a PNS account, close an account, put a candidate on the validator list
or retrieve the balance of a lost account is checked by the pool (`validateOperation`).  Execution
runs on the contents of a block, and checks none of it again: a block may hold a transaction that no
pool would have taken.

`executed_only_if_valid_iff` says for every message what that means: an operation that has something
to change changes it, whoever sent it.
-/
import ProbeChain.Pool.Validate
import ProbeChain.State.Frame

namespace ProbeChain

open StateObject Option

/-! ## 1. What the checks protect -/

/-- Owner and data of a PNS account, whether an account is closed, and the list of candidates. -/
structure Traits where
  pns : Option (Address × Bytes)
  closed : Bool
  candidates : ValidatorListAccount
  deriving DecidableEq

/-- A missing account has the traits of a new one that is not a PNS account. -/
def traits : Option StateObject → Traits
  | none => ⟨none, false, {}⟩
  | some o =>
    { pns := if o.accountType = .pns then some (o.pnsAccount.owner, o.pnsAccount.data) else none
      closed := o.suicided
      candidates := o.validatorListAccount }

theorem traits_setBalance (o : StateObject) (v : Int) :
    traits (some (o.setBalance v)) = traits (some o) := by
  cases o with
  | mk t => cases t <;> rfl

namespace StateObject

-- Of what an operation can write, the traits show the names, the candidates and the closing.

theorem cashless_traits : Cashless (fun o => traits (some o)) (traits none) :=
  ⟨traits_setBalance, rfl⟩

theorem voteless_traits : Voteless fun o => traits (some o) := {}

theorem unreported_traits : Unreported (fun o => traits (some o)) (traits none) := {}

end StateObject

namespace World

/-- No trait of any account differs. -/
def SameTraits (w w' : World) : Prop := ∀ a, traits (w' a) = traits (w a)

variable {w w' w'' : World} {ctx : TxContext}

theorem SameTraits.refl (w : World) : SameTraits w w := fun _ => rfl

/-! ## 2. Operations that leave them alone -/

theorem view_traits (w : World) (a : Address) :
    w.view (fun o => traits (some o)) (traits none) a = traits (w a) := by
  unfold view
  cases w a with
  | none => rfl
  | some o => rfl

theorem sameTraits_of_view (h : w'.view (fun o => traits (some o)) (traits none) =
    w.view (fun o => traits (some o)) (traits none)) : SameTraits w w' := by
  intro a
  rw [← view_traits, h, view_traits]

theorem sameTraits_credit (a : Address) (v : Int) : SameTraits w (w.credit a v) :=
  sameTraits_of_view (view_credit cashless_traits w a v)

theorem sameTraits_updateLossMark (lastBits : UInt32) (flag : Bool) :
    SameTraits w (w.updateLossMark lastBits flag) :=
  sameTraits_of_view (view_updateLossMark unreported_traits w lastBits flag)

theorem sameTraits_transferLostAccountAuthorize :
    SameTraits w (w.transferLostAssociatedAccount ctx .transferLostAccountAuthorize) := by
  refine sameTraits_of_view ?_
  unfold transferLostAssociatedAccount
  split
  · rfl
  · split
    · rfl
    · split
      · exact view_modify (fun o => voteless_traits.authorize o _) w _
      · rfl

/-! ## 3. What it takes to alter them -/

/-- The owner or the data of a PNS account changes, an account is closed, or the list of candidates
changes. -/
def TraitsAltered (w w' : World) : Prop :=
  (∃ a v, (traits (w a)).pns = some v ∧ (traits (w' a)).pns ≠ some v) ∨
  (∃ a, (traits (w a)).closed = false ∧ (traits (w' a)).closed = true) ∨
  (traits (w' specialAddressForDPoS)).candidates ≠ (traits (w specialAddressForDPoS)).candidates

theorem traitsAltered_congr (h : SameTraits w' w'') : TraitsAltered w w'' ↔ TraitsAltered w w' := by
  unfold TraitsAltered
  simp only [h _]

theorem not_traitsAltered_of_same (h : SameTraits w w') : ¬ TraitsAltered w w' := by
  rw [traitsAltered_congr h]
  rintro (⟨a, v, hv, hne⟩ | ⟨a, hopen, hclosed⟩ | hne)
  · exact hne hv
  · rw [hopen] at hclosed
    cases hclosed
  · exact hne rfl

/-- What is at `a` has a trait that is not the one `o` has. -/
def Overwrites (w : World) (a : Address) (o : StateObject) : Prop :=
  (∃ v, (traits (w a)).pns = some v ∧ (traits (some o)).pns ≠ some v) ∨
  ((traits (w a)).closed = false ∧ o.suicided = true) ∨
  (a = specialAddressForDPoS ∧ o.validatorListAccount ≠ (traits (w a)).candidates)

theorem traitsAltered_put_iff (w : World) (a : Address) (o : StateObject) :
    TraitsAltered w (w.put a o) ↔ w.Overwrites a o := by
  constructor
  · rintro (⟨b, v, hv, hne⟩ | ⟨b, hopen, hclosed⟩ | hne)
    · by_cases hb : b = a
      · subst hb
        rw [put_self] at hne
        exact .inl ⟨v, hv, hne⟩
      · rw [put_of_ne _ _ hb] at hne
        exact absurd hv hne
    · by_cases hb : b = a
      · subst hb
        rw [put_self] at hclosed
        exact .inr (.inl ⟨hopen, hclosed⟩)
      · rw [put_of_ne _ _ hb, hopen] at hclosed
        cases hclosed
    · by_cases hb : specialAddressForDPoS = a
      · subst hb
        exact .inr (.inr ⟨rfl, hne⟩)
      · rw [put_of_ne _ _ hb] at hne
        exact absurd rfl hne
  · rintro (⟨v, hv, hne⟩ | ⟨hopen, hclosed⟩ | ⟨rfl, hne⟩)
    · exact .inl ⟨a, v, hv, by rwa [put_self]⟩
    · exact .inr (.inl ⟨a, hopen, by rw [put_self]; exact hclosed⟩)
    · exact .inr (.inr (by rw [put_self]; exact hne))

/-- Closing the accounts of a list alters something when one of them is there and still open. -/
theorem traitsAltered_close_iff {L : List Address}
    (h : ∀ b, w'.view (fun o => traits (some o)) (traits none) b =
      if b ∈ L then w.view (fun o => traits (some o.markSuicided)) (traits none) b
      else w.view (fun o => traits (some o)) (traits none) b) :
    TraitsAltered w w' ↔ ∃ a ∈ L, ∃ o, w a = some o ∧ o.suicided = false := by
  have hclosed (b : Address) :
      traits (w' b) =
        { traits (w b) with closed := (traits (w b)).closed || b ∈ L && (w b).isSome } := by
    rw [← view_traits, h b]
    by_cases hb : b ∈ L
    · rw [if_pos hb, view]
      cases w b with
      | none => simp [traits]
      | some o =>
        rw [decide_eq_true hb, isSome_some, Bool.and_self, Bool.or_true]
        rfl
    · rw [if_neg hb, view_traits]
      simp [hb]
  unfold TraitsAltered
  simp only [hclosed]
  constructor
  · rintro (⟨a, v, hv, hne⟩ | ⟨a, hopen, hclose⟩ | hne)
    · exact absurd hv hne
    · rw [hopen, Bool.false_or, Bool.and_eq_true, decide_eq_true_eq] at hclose
      obtain ⟨o, ho⟩ := isSome_iff_exists.mp hclose.2
      rw [ho] at hopen
      exact ⟨a, hclose.1, o, ho, hopen⟩
    · exact absurd rfl hne
  · rintro ⟨a, ha, o, ho, hopen⟩
    exact .inr (.inl ⟨a, by rw [ho]; exact hopen, by simp [ha, ho]⟩)

theorem overwrites_pns_iff {a : Address} {o p : StateObject} (ho : w a = some o)
    (ht : p.accountType = o.accountType) (hs : p.suicided = o.suicided)
    (hl : p.validatorListAccount = o.validatorListAccount) :
    w.Overwrites a p ↔ o.accountType = .pns ∧
      (p.pnsAccount.owner, p.pnsAccount.data) ≠ (o.pnsAccount.owner, o.pnsAccount.data) := by
  unfold Overwrites
  simp only [ho, traits, ht, hs, hl]
  constructor
  · rintro (⟨v, hv, hne⟩ | ⟨hopen, hclosed⟩ | ⟨-, hne⟩)
    · by_cases hpns : o.accountType = .pns
      · rw [if_pos hpns] at hv hne
        cases hv
        exact ⟨hpns, fun h => hne (congrArg some h)⟩
      · rw [if_neg hpns] at hv
        cases hv
    · rw [hopen] at hclosed
      cases hclosed
    · exact absurd rfl hne
  · rintro ⟨hpns, hne⟩
    refine .inl ⟨_, if_pos hpns, ?_⟩
    rw [if_pos hpns]
    exact fun h => hne (some.inj h)

theorem traitsAltered_modify_iff (a : Address) (f : StateObject → StateObject) :
    TraitsAltered w (w.modify a f) ↔ ∃ o, w a = some o ∧ w.Overwrites a (f o) := by
  cases ha : w a with
  | none =>
    rw [modify_of_none ha]
    simp [not_traitsAltered_of_same (SameTraits.refl w)]
  | some o =>
    rw [modify_of_some ha, traitsAltered_put_iff]
    simp

/-- A candidate is put on the list of the account that holds it, or of a new one. -/
theorem overwrites_candidates_iff (X : Externals) (candidate : DPoSCandidateAccount)
    (roundId : UInt64) :
    w.Overwrites specialAddressForDPoS (candidateListed X
      ((w specialAddressForDPoS).getD (StateObject.new .dpos)) candidate roundId) ↔
      (candidateListed X ((w specialAddressForDPoS).getD (StateObject.new .dpos)) candidate
        roundId).validatorListAccount ≠ (traits (w specialAddressForDPoS)).candidates := by
  unfold Overwrites
  cases hw : w specialAddressForDPoS with
  | none =>
    constructor
    · rintro (⟨v, hv, -⟩ | ⟨-, hclosed⟩ | ⟨-, hne⟩)
      · cases hv
      · cases hclosed
      · exact hne
    · exact fun hne => .inr (.inr ⟨rfl, hne⟩)
  | some o =>
    constructor
    · rintro (⟨v, hv, hne⟩ | ⟨hopen, hclosed⟩ | ⟨-, hne⟩)
      · exact absurd hv hne
      · exact absurd (hopen.symm.trans hclosed) (by decide)
      · exact hne
    · exact fun hne => .inr (.inr ⟨rfl, hne⟩)

/-- Writing the PNS record alters something when the account is of that type and the owner or the
data is another one. -/
theorem traitsAltered_modifyPns_iff (a : Address) (g : PnsAccount → PnsAccount) :
    TraitsAltered w (w.modify a fun o => { o with pnsAccount := g o.pnsAccount }) ↔
      ∃ o, w a = some o ∧ o.accountType = .pns ∧ ((g o.pnsAccount).owner ≠ o.pnsAccount.owner ∨
        (g o.pnsAccount).data ≠ o.pnsAccount.data) := by
  rw [traitsAltered_modify_iff]
  refine exists_congr fun o => and_congr_right fun ho => ?_
  rw [overwrites_pns_iff (p := { o with pnsAccount := g o.pnsAccount }) ho rfl rfl rfl]
  refine and_congr_right fun _ => ?_
  rw [Ne, Prod.mk.injEq, not_and_or]

/-! ## 4. Each operation -/

/-- The message names something that its operation changes: an account that would be overwritten, an
account still open, a PNS account with another owner or other data, a candidate not on the list, or
a lost account that holds a balance. -/
def Alters (X : Externals) (w : World) (ctx : TxContext) (dest : Address) : Prop :=
  match operationOf dest with
  | .registerPns => w.Overwrites (createPNSAddress X ctx.fromAddr ctx.data) (newPns ctx)
  | .registerAuthorize => w.Overwrites (createAddress X ctx.fromAddr ctx.nonce) (newAuthorize ctx)
  | .registerLose => w.Overwrites (createAddress X ctx.fromAddr ctx.nonce) (newLoss ctx)
  | .cancellation => ∃ d o, decodeCancellation ctx.data = some d ∧ w d.cancelAddress = some o ∧
      o.suicided = false
  | .removeLossReport | .rejectLossReport => ∃ addr loss, decodeAddress ctx.data = some addr ∧
      w addr = some loss ∧ loss.suicided = false
  | .cancellationLostAccount => ∃ addr loss, decodeAddress ctx.data = some addr ∧
      w addr = some loss ∧ (w loss.lossAccount.newAccount).isSome ∧
      (loss.suicided = false ∨
        ∃ lost, w loss.lossAccount.lostAccount = some lost ∧ lost.suicided = false)
  | .modifyPnsOwner => ∃ d o, decodePnsOwner ctx.data = some d ∧ w d.pnsAddress = some o ∧
      o.accountType = .pns ∧ o.pnsAccount.owner ≠ d.ownerAddress
  | .modifyPnsContent => ∃ d o, decodePnsContent ctx.data = some d ∧ w d.pnsAddress = some o ∧
      o.accountType = .pns ∧ o.pnsAccount.data ≠ d.pnsData
  | .transferLostAccountPns => ∃ d loss o, decodeAssociatedAccount ctx.data = some d ∧
      w d.lossAccount = some loss ∧ (w loss.lossAccount.lostAccount).isSome ∧
      (w loss.lossAccount.newAccount).isSome ∧ w d.associatedAccount = some o ∧
      o.accountType = .pns ∧ o.pnsAccount.owner ≠ loss.lossAccount.newAccount
  | .applyToBeDPoSNode => ∃ d o voteValue blockNumber roundId, decodeApplyDPos ctx.data = some d ∧
      w d.voteAddress = some o ∧ o.authorizeAccount.voteValue = some voteValue ∧
      ctx.blockNumber = some blockNumber ∧
      calcValidatorRoundId (UInt64.ofNat blockNumber) ctx.pobEpoch = some roundId ∧
      (candidateListed X ((w specialAddressForDPoS).getD (StateObject.new .dpos))
        { enode := bytesToValidatorEnode d.nodeInfo, owner := o.authorizeAccount.owner,
          voteAccount := d.voteAddress, voteValue := voteValue } roundId).validatorListAccount ≠
      (traits (w specialAddressForDPoS)).candidates
  | .transferLostAccountBalance => ∃ addr loss lost, decodeAddress ctx.data = some addr ∧
      w addr = some loss ∧ w loss.lossAccount.lostAccount = some lost ∧
      (w loss.lossAccount.newAccount).isSome ∧ 0 < lost.balance
  | _ => False

variable {X : Externals} {dest : Address}

theorem traitsAltered_cancellationLoss_iff (hop : operationOf dest = .cancellationLostAccount)
    (h : w.cancellationLoss ctx = some w') : TraitsAltered w w' ↔ Alters X w ctx dest := by
  rw [traitsAltered_close_iff (view_cancellationLoss cashless_traits h), Alters, hop]
  unfold closedWithReport
  cases hd : decodeAddress ctx.data with
  | none => simp
  | some addr =>
    cases hl : w addr with
    | none => simp [hl]
    | some loss =>
      cases hn : w loss.lossAccount.newAccount with
      | none => simp [hl, hn]
      | some benefit => simp [hl, hn]

theorem traitsAltered_modifyPnsOwner_iff (hop : operationOf dest = .modifyPnsOwner) :
    TraitsAltered w (w.modifyPnsOwner ctx) ↔ Alters X w ctx dest := by
  rw [Alters, hop]
  unfold modifyPnsOwner
  cases hd : decodePnsOwner ctx.data with
  | none => simp [not_traitsAltered_of_same (SameTraits.refl w)]
  | some d =>
    have h := traitsAltered_modifyPns_iff (w := w) d.pnsAddress
      fun p => { p with owner := d.ownerAddress }
    refine h.trans ?_
    simp [eq_comm]

theorem traitsAltered_modifyPnsContent_iff (hop : operationOf dest = .modifyPnsContent) :
    TraitsAltered w (w.modifyPnsContent ctx) ↔ Alters X w ctx dest := by
  rw [Alters, hop]
  unfold modifyPnsContent
  cases hd : decodePnsContent ctx.data with
  | none => simp [not_traitsAltered_of_same (SameTraits.refl w)]
  | some d =>
    have h := traitsAltered_modifyPns_iff (w := w) d.pnsAddress
      fun p => { p with pnsType := d.pnsType, data := d.pnsData }
    refine h.trans ?_
    simp [eq_comm]

theorem traitsAltered_transferLostAccountPns_iff
    (hop : operationOf dest = .transferLostAccountPns) :
    TraitsAltered w (w.transferLostAssociatedAccount ctx .transferLostAccountPns) ↔
      Alters X w ctx dest := by
  have hsame := not_traitsAltered_of_same (SameTraits.refl w)
  rw [Alters, hop]
  unfold transferLostAssociatedAccount
  cases hd : decodeAssociatedAccount ctx.data with
  | none => simp [hsame]
  | some d =>
    cases hl : w d.lossAccount with
    | none => simp [hsame, hl]
    | some loss =>
      cases hlost : w loss.lossAccount.lostAccount with
      | none => simp [hsame, hl, hlost]
      | some lost =>
        cases hnew : w loss.lossAccount.newAccount with
        | none => simp [hsame, hl, hnew]
        | some new =>
          have h := traitsAltered_modifyPns_iff (w := w) d.associatedAccount
            fun p => { p with owner := loss.lossAccount.newAccount }
          simp only [ne_eq, not_true_eq_false, or_false] at h
          simp only [hl, hlost, hnew]
          refine h.trans ⟨?_, ?_⟩
          · rintro ⟨o, ho, hpns, hne⟩
            exact ⟨d, loss, o, rfl,
              hl, by rw [hlost]; rfl, by rw [hnew]; rfl, ho, hpns, Ne.symm hne⟩
          · rintro ⟨d', loss', o, hd', hl', -, -, ho, hpns, hne⟩
            cases hd'
            cases hl.symm.trans hl'
            exact ⟨o, ho, hpns, Ne.symm hne⟩

theorem traitsAltered_applyToBeDPoSNode_iff (hop : operationOf dest = .applyToBeDPoSNode)
    (h : w.applyToBeDPoSNode X ctx = some w') : TraitsAltered w w' ↔ Alters X w ctx dest := by
  have hsame := not_traitsAltered_of_same (SameTraits.refl w)
  rw [Alters, hop]
  unfold applyToBeDPoSNode at h
  cases hd : decodeApplyDPos ctx.data with
  | none =>
    rw [hd] at h
    cases h
    simp [hsame]
  | some d =>
    simp only [hd] at h
    cases ho : w d.voteAddress with
    | none =>
      rw [ho] at h
      cases h
      simp [hsame, ho]
    | some o =>
      simp only [ho, bind_eq_bind, bind_eq_some_iff] at h
      obtain ⟨voteValue, hv, blockNumber, hn, roundId, hr, h⟩ := h
      cases h
      rw [traitsAltered_put_iff, overwrites_candidates_iff]
      constructor
      · intro hne
        exact ⟨d, o, voteValue, blockNumber, roundId, rfl, ho, hv, hn, hr, hne⟩
      · rintro ⟨d', o', v', n', r', hd', ho', hv', hn', hr', hne⟩
        cases hd'
        cases ho.symm.trans ho'
        cases hv.symm.trans hv'
        cases hn.symm.trans hn'
        cases hr.symm.trans hr'
        exact hne

/-! ## 5. The balance of a lost account -/

/-- The balance of the account that the report in the payload names as lost changes. -/
def LostBalanceAltered (w w' : World) (ctx : TxContext) : Prop :=
  ∃ addr loss, decodeAddress ctx.data = some addr ∧ w addr = some loss ∧
    w'.balanceAt loss.lossAccount.lostAccount ≠ w.balanceAt loss.lossAccount.lostAccount

theorem lostBalanceAltered_iff (hop : operationOf dest = .transferLostAccountBalance)
    (h : w.transferLostAccount ctx = some w') : LostBalanceAltered w w' ctx ↔
      Alters X w ctx dest := by
  rw [Alters, hop]
  unfold transferLostAccount at h
  cases hd : decodeAddress ctx.data with
  | none => simp [LostBalanceAltered, hd]
  | some addr =>
    simp only [hd] at h
    cases hr : w addr with
    | none => simp [LostBalanceAltered, hd, hr]
    | some loss =>
      simp only [hr, map_eq_some_iff] at h
      obtain ⟨w₁, hw₁, rfl⟩ := h
      have hstate :=
        balanceAt_congr (view_modify (g := balance) (d := 0) (f := (·.setLossState .success))
        (fun _ => rfl) w₁ addr)
      have hiff : LostBalanceAltered w (w₁.modify addr (·.setLossState .success)) ctx ↔
          w₁.balanceAt loss.lossAccount.lostAccount ≠
            w.balanceAt loss.lossAccount.lostAccount := by
        simp [LostBalanceAltered, hd, hr, hstate]
      rw [hiff]
      unfold transferLostAssets at hw₁
      split at hw₁
      next lost benefit hl hb =>
        rw [balanceAt_congr (view_transferLostVotes unseenRecords_balance.toVoteless hw₁),
          balanceAt_transferLostBalance hl, balanceAt, hl]
        constructor
        · intro hne
          by_cases hpos : 0 < lost.balance
          · exact ⟨addr, loss, lost, rfl, hr, hl, by rw [hb]; rfl, hpos⟩
          · rw [if_neg hpos] at hne
            exact absurd rfl hne
        · rintro ⟨addr', loss', lost', hd', hr', hl', -, hpos⟩
          cases hd'
          cases hr.symm.trans hr'
          cases hl.symm.trans hl'
          rw [if_pos hpos]
          exact ne_of_lt hpos
      next hnone =>
        cases hw₁
        refine ⟨fun hne => absurd rfl hne, ?_⟩
        rintro ⟨addr', loss', lost', hd', hr', hl', hb', -⟩
        cases hd'
        cases hr.symm.trans hr'
        obtain ⟨b, hb⟩ := isSome_iff_exists.mp hb'
        exact absurd hb (hnone lost' b hl')

/-! ## 6. Every message -/

/-- What a message to `dest` may only do when the checks of its operation hold: alter a trait, or
retrieve the balance of a lost account. -/
def Altered (w w' : World) (ctx : TxContext) (dest : Address) : Prop :=
  TraitsAltered w w' ∨
    (operationOf dest = .transferLostAccountBalance ∧ LostBalanceAltered w w' ctx)

/-- **What a message changes.**  A call that returned altered something exactly when the message
names something its operation changes; who sent it does not come into it. -/
theorem altered_iff_alters {X : Externals} {dest : Address} (hto : ctx.toAddr = some dest)
    (h : w.callDB X ctx = some w') : Altered w w' ctx dest ↔ Alters X w ctx dest := by
  have hsame (hview : w'.view (fun o => traits (some o)) (traits none) =
      w.view (fun o => traits (some o)) (traits none)) : TraitsAltered w w' ↔ False :=
    iff_false_intro (not_traitsAltered_of_same (sameTraits_of_view hview))
  unfold callDB at h
  simp only [hto] at h
  unfold Altered Alters
  cases hop : operationOf dest <;> simp only [hop] at h ⊢ <;>
    simp only [reduceCtorEq, false_and, or_false, true_and]
  case registerPns =>
    cases h
    rw [registerPns, traitsAltered_congr (sameTraits_credit _ _), traitsAltered_put_iff]
  case registerAuthorize =>
    cases h
    rw [registerAuthorize, traitsAltered_congr (sameTraits_credit _ _), traitsAltered_put_iff]
  case registerLose =>
    cases h
    rw [registerLose, traitsAltered_congr (sameTraits_credit _ _),
      traitsAltered_congr (sameTraits_updateLossMark _ _), traitsAltered_put_iff]
  case cancellation =>
    rw [traitsAltered_close_iff (view_cancellation cashless_traits h)]
    simp [subject]
  case removeLossReport =>
    rw [traitsAltered_close_iff (view_closeReport unreported_traits cashless_traits false h)]
    simp
  case rejectLossReport =>
    rw [traitsAltered_close_iff (view_closeReport unreported_traits cashless_traits true h)]
    simp
  case cancellationLostAccount =>
    rw [traitsAltered_cancellationLoss_iff (X := X) hop h, Alters, hop]
  case applyToBeDPoSNode => rw [traitsAltered_applyToBeDPoSNode_iff hop h, Alters, hop]
  case modifyPnsOwner => cases h; rw [traitsAltered_modifyPnsOwner_iff (X := X) hop, Alters, hop]
  case modifyPnsContent =>
    cases h; rw [traitsAltered_modifyPnsContent_iff (X := X) hop, Alters, hop]
  case transferLostAccountPns =>
    cases h; rw [traitsAltered_transferLostAccountPns_iff (X := X) hop, Alters, hop]
  case transferLostAccountBalance =>
    rw [or_iff_right (not_traitsAltered_of_same (sameTraits_of_view
      (view_transferLostAccount voteless_traits cashless_traits unreported_traits h)))]
    rw [lostBalanceAltered_iff (X := X) hop h, Alters, hop]
  case vote => exact hsame (view_vote voteless_traits cashless_traits h)
  case redemption => exact hsame (view_redemption voteless_traits cashless_traits h)
  case revealLossReport => exact hsame (view_revealLossReport unreported_traits cashless_traits h)
  case modifyLossType =>
    cases h
    exact hsame (view_modifyLossType unreported_traits)
  case transferLostAccountAuthorize =>
    cases h
    exact iff_false_intro (not_traitsAltered_of_same sameTraits_transferLostAccountAuthorize)
  case transfer =>
    cases h
    exact hsame (view_transfer cashless_traits w ctx dest)

end World

open World

/-- **Execution does not ask who sent a message.**  A message that was executed changed what the
checks of the pool protect only if the checks hold, exactly when they hold or the message names
nothing that its operation changes. -/
theorem executed_only_if_valid_iff {X : Externals} {pool : Pool} {tx : Transaction}
    {sender dest : Address} {pobEpoch : UInt64} {blockNumber : Option Nat} {s' : StateDB}
    (hto : tx.toAddr = some dest)
    (h : callDB X pool.currentState (tx.context sender pobEpoch blockNumber) = some s') :
    (Altered pool.currentState.world s'.world (tx.context sender pobEpoch blockNumber) dest →
      pool.validateOperation X tx sender dest = .ok ()) ↔
    (pool.validateOperation X tx sender dest = .ok () ∨
      ¬ Alters X pool.currentState.world (tx.context sender pobEpoch blockNumber) dest) := by
  have hctx : (tx.context sender pobEpoch blockNumber).toAddr = some dest := hto
  rw [altered_iff_alters hctx (world_callDB h), imp_iff_or_not]

/-- Two Regular accounts, and a PNS account that belongs to the first of them. -/
def pnsPool : Pool :=
  { currentState := StateDB.ofAccounts [(1, .ofBalance 1000000000000000000),
      (2, .ofBalance 1000000000000000000),
      (5, { accountType := .pns, pnsAccount := { owner := 1 } })]
    currentNumber := 100, currentMaxGas := 8000000, gasPrice := 1, eip2718 := true,
    eip1559 := true, istanbul := true }

/-- The PNS account is given to account `2`. -/
def takePnsTx (sender : Address) : Transaction :=
  { sender := some sender, toAddr := some 0x113, value := 0, gas := 100000, gasPrice := 1,
    gasFeeCap := 1, gasTipCap := 1,
    data := Rlp.encodeList (Rlp.encodeString (Address.bytes 5) ++
      Rlp.encodeString (Address.bytes 2)) }

/-- The owner gives the account away: the checks hold, and it is given. -/
theorem owner_gives_pns :
    ∃ s', callDB plainExternals pnsPool.currentState ((takePnsTx 1).context 1 0 none) = some s' ∧
      (Altered pnsPool.currentState.world s'.world ((takePnsTx 1).context 1 0 none) 0x113 →
        pnsPool.validateOperation plainExternals (takePnsTx 1) 1 0x113 = .ok ()) := by
  exact ⟨_, rfl, (executed_only_if_valid_iff rfl rfl).mpr (.inl rfl)⟩

/-- Account `2` takes it: the pool refuses that, and execution does it. -/
theorem stranger_takes_pns :
    pnsPool.validateOperation plainExternals (takePnsTx 2) 2 0x113 = .error .invalidPnsOwner ∧
    ∃ s', callDB plainExternals pnsPool.currentState ((takePnsTx 2).context 2 0 none) = some s' ∧
      (pnsPool.currentState.world 5).map (·.pnsAccount.owner) = some 1 ∧
      (s'.world 5).map (·.pnsAccount.owner) = some 2 ∧
      Altered pnsPool.currentState.world s'.world ((takePnsTx 2).context 2 0 none) 0x113 := by
  refine ⟨rfl, _, rfl, rfl, rfl, .inl (.inl ⟨5, (1, []), rfl, ?_⟩)⟩
  exact fun h => absurd (congrArg (Option.map Prod.fst) h) (by decide)

end ProbeChain
