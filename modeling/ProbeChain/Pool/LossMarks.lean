/-
# The marks of loss reports

A report that is registered sets a mark for the last bits of the account that is lost, so that there
is at most one for each mark until it is revealed.  In every state the marks should be those of the
reports that are not revealed yet.

Rejecting a report clears its mark once more, although revealing it has done so already.  In the
meantime another report may have been registered for the same mark: `loss_marks_iff` says that this
is the only way in which the marks become wrong, and `mark_cleared_under_report` shows one such run.
-/
import ProbeChain.Pool.LossReports

namespace ProbeChain

open Evm Files StateObject Option World

/-! ## 1. Marks and reports -/

namespace World

/-- Mark `b` is set if and only if it is the mark of a report that is not revealed yet. -/
def MarksExact (w : World) : Prop :=
  ∀ b, (w markAddress).elim false (·.lossMarkAccount.lossMark.getMark b) = true ↔
    ∃ r loss, w r = some loss ∧ loss.accountType = .loss ∧ loss.lossAccount.state = .apply ∧
      loss.lossAccount.lastBits.toNat % 1024 = b

variable {w : World}

/-- The marks are in the account of the right type, or there are none. -/
theorem elim_getMark (h : w.papers.Tidy) (b : Nat) :
    (w markAddress).elim false (·.lossMarkAccount.lossMark.getMark b) =
      w.papers.marks.getMark b := by
  rw [marks]
  cases ho : w markAddress with
  | none =>
    rw [papers_of_none ho]
    exact (LossMark.getMark_zero b).symm
  | some o =>
    have hstray := h.stray markAddress
    rw [papers_of_some ho] at hstray ⊢
    by_cases htype : o.accountType = .lossMark
    · have hmark : o.papers.mark = some o.lossMarkAccount.lossMark := if_pos htype
      rw [hmark]
      rfl
    · have hmark : o.papers.mark = none := if_neg htype
      have hrecord : o.lossMarkAccount = {} := by
        by_contra hrecord
        exact hstray (.inr ⟨htype, hrecord⟩)
      rw [hmark, elim_some, hrecord]
      rfl

theorem report_iff {r : Address} {l : LossAccount} :
    w.papers.docket.reports r = some l ↔ ∃ loss, w r = some loss ∧ loss.accountType = .loss ∧
      loss.lossAccount = l := by
  constructor
  · exact exists_of_report
  · rintro ⟨loss, hloss, htype, rfl⟩
    show (w.papers r).report = _
    rw [papers_of_some hloss]
    exact if_pos htype

theorem keeps_iff {r : Address} {b : Nat} :
    w.papers.docket.keeps r = some b ↔ ∃ loss, w r = some loss ∧ loss.accountType = .loss ∧
      loss.lossAccount.state = .apply ∧ loss.lossAccount.lastBits.toNat % 1024 = b := by
  rw [Docket.keeps_eq_some]
  constructor
  · rintro ⟨l, hl, hstate, hbit⟩
    obtain ⟨loss, hloss, htype, rfl⟩ := report_iff.mp hl
    exact ⟨loss, hloss, htype, hstate, hbit⟩
  · rintro ⟨loss, hloss, htype, hstate, hbit⟩
    exact ⟨loss.lossAccount, report_iff.mpr ⟨loss, hloss, htype, rfl⟩, hstate, hbit⟩

/-- The marks are right in terms of the protocol. -/
theorem marksExact_iff (h : w.papers.Tidy) :
    w.MarksExact ↔ Slots.Exact w.papers.docket.mark.getMark w.papers.docket.keeps := by
  unfold MarksExact Slots.Exact
  simp only [elim_getMark h, keeps_iff]
  rfl

end World

/-! ## 2. Which step breaks the marks -/

theorem lossEvent_eq_reject {X : Externals} {w : World} {ctx : TxContext} {r : Address}
    (h : lossEvent X w ctx = .reject r) :
    ctx.toAddr.map operationOf = some .rejectLossReport ∧ decodeAddress ctx.data = some r := by
  unfold lossEvent at h
  split at h
  case h_6 hop =>
    refine ⟨hop, ?_⟩
    cases hd : decodeAddress ctx.data with
    | none =>
      rw [hd] at h
      cases h
    | some r' =>
      rw [hd] at h
      cases h
      rfl
  case h_2 => cases hd : decodeCancellation ctx.data <;> rw [hd] at h <;> cases h
  case h_3 => cases hd : decodeRevealLossReport ctx.data <;> rw [hd] at h <;> cases h
  case h_7 =>
    cases hd : decodeAddress ctx.data with
    | none =>
      rw [hd] at h
      cases h
    | some r' =>
      rw [hd, elim_some] at h
      split at h <;> cases h
  case h_4 => cases hd : decodeAddress ctx.data <;> rw [hd] at h <;> cases h
  case h_5 => cases hd : decodeAddress ctx.data <;> rw [hd] at h <;> cases h
  all_goals cases h

/-- The transaction rejects a report while another one, not revealed yet, has the same mark. -/
def Inclusion.Clobbers (x : Inclusion) (s : StateDB) : Prop :=
  ∃ sender dest r loss, x.Direct s sender dest ∧ operationOf dest = .rejectLossReport ∧
    decodeAddress x.tx.data = some r ∧ s.world r = some loss ∧ loss.accountType = .loss ∧
    ∃ r' other, s.world r' = some other ∧ other.accountType = .loss ∧
    other.lossAccount.state = .apply ∧
      other.lossAccount.lastBits.toNat % 1024 = loss.lossAccount.lastBits.toNat % 1024

namespace Inclusion

variable {x : Inclusion} {s t : StateDB} {sender dest : Address}

theorem clobbers_iff (hdirect : x.Direct s sender dest) :
    x.Clobbers s ↔ s.world.papers.docket.Clobbers
      (lossEvent x.env.X ((x.execution sender).prepared s).world (x.context sender dest)) := by
  have hto : (x.context sender dest).toAddr.map operationOf = some (operationOf dest) := rfl
  constructor
  · rintro ⟨sender', dest', r, loss, hdirect', hop, hr, hloss, htype, r', other, hother⟩
    obtain rfl : dest' = dest := some.inj (hdirect'.2.toAddr.symm.trans hdirect.2.toAddr)
    refine ⟨r, loss.lossAccount, ?_, report_iff.mpr ⟨loss, hloss, htype, rfl⟩, r',
      keeps_iff.mpr ⟨other, hother⟩⟩
    rw [lossEvent, hto, hop]
    show (decodeAddress x.tx.data).elim LossEvent.idle .reject = .reject r
    rw [hr]
    rfl
  · rintro ⟨r, l, hevent, hl, r', hr'⟩
    obtain ⟨loss, hloss, htype, rfl⟩ := report_iff.mp hl
    obtain ⟨other, hother⟩ := keeps_iff.mp hr'
    obtain ⟨hop, hr⟩ := lossEvent_eq_reject hevent
    exact ⟨sender, dest, r, loss, hdirect, some.inj hop, hr, hloss, htype, r', other, hother⟩

/-- **A transaction keeps the marks right unless it clobbers one.** -/
theorem Orderly.marks (h : x.Orderly s) (htidy : s.world.papers.Tidy)
    (hexact : s.world.papers.docket.Exact) (ht : x.apply s = some t) :
    Slots.Single t.world.papers.docket.keeps ∧
      (Slots.Exact t.world.papers.docket.mark.getMark t.world.papers.docket.keeps ↔
        ¬ x.Clobbers s) := by
  obtain ⟨haccepted, hcases⟩ := h
  by_cases hevent : ∃ sender dest, x.Direct s sender dest ∧
      s.world.Uncollided x.env.X (x.context sender dest)
  · obtain ⟨sender, dest, hdirect, huncollided⟩ := hevent
    obtain ⟨hstep, -⟩ := step_apply haccepted hdirect htidy huncollided ht
    rw [clobbers_iff hdirect]
    exact ⟨Docket.single_step hexact hstep, Docket.marks_step_iff hexact hstep⟩
  · have haloof := hcases.resolve_left hevent
    rw [haloof.papers t ht]
    refine ⟨hexact.single, iff_of_true hexact.marks ?_⟩
    -- rejecting is not registering, so that there is nothing to collide with
    rintro ⟨sender, dest, r, loss, hdirect, hop, -⟩
    refine hevent ⟨sender, dest, hdirect, fun hregister => ?_⟩
    rw [show (x.context sender dest).toAddr.map operationOf = some (operationOf dest) from rfl, hop]
      at hregister
    cases hregister

end Inclusion

namespace ChainStep

variable {y : ChainStep} {s t : StateDB}

def Clobbers (s : StateDB) : ChainStep → Prop
  | .transaction x => x.Clobbers s
  | .nextBlock => False

/-- One step of the chain. -/
theorem Orderly.marks (h : y.Orderly s) (htidy : s.world.papers.Tidy)
    (hexact : s.world.papers.docket.Exact) (ht : apply s y = some t) :
    Slots.Single t.world.papers.docket.keeps ∧
      (Slots.Exact t.world.papers.docket.mark.getMark t.world.papers.docket.keeps ↔
        ¬ y.Clobbers s) := by
  cases y with
  | transaction x => exact Inclusion.Orderly.marks h htidy hexact ht
  | nextBlock =>
    obtain rfl := some.inj ht
    rw [papers_ofTrie, docket_reread]
    exact ⟨hexact.reread.single, iff_of_true hexact.reread.marks id⟩

end ChainStep

/-! ## 3. Runs -/

theorem Files.exact_empty : (docket fun _ => {}).Exact where
  marks b := by
    refine iff_of_false ?_ ?_
    · rw [show (docket fun _ => {}).mark = 0 from rfl, LossMark.getMark_zero]
      exact Bool.false_ne_true
    · rintro ⟨r, hr⟩
      cases hr
  single i j b hi := by cases hi

/-- **The marks of an orderly chain** are right in every state it goes through, exactly if no
transaction rejects a report whose mark belongs to another one. -/
theorem loss_marks_iff (X : Externals) (pob : Bool) (alloc : List (Address × GenesisAccount))
    {ys : List ChainStep} {s : StateDB}
    (hsteps : Run.Along ChainStep.apply ChainStep.Orderly ys (genesisState X pob alloc))
    (hrun : Run.run ChainStep.apply ys (genesisState X pob alloc) = some s) :
    Run.Through ChainStep.apply (fun s => s.world.MarksExact) ys (genesisState X pob alloc) ↔
      Run.Along ChainStep.apply (fun s y => ¬ y.Clobbers s) ys (genesisState X pob alloc) := by
  have htidy : (genesisState X pob alloc).world.papers.Tidy := by
    rw [papers_genesisState]
    exact Files.tidy_empty
  have hexact : (genesisState X pob alloc).world.papers.docket.Exact := by
    rw [papers_genesisState]
    exact Files.exact_empty
  refine Run.through_iff_along
    (K := fun s => s.world.papers.Tidy ∧ Slots.Single s.world.papers.docket.keeps) ?_ ?_
    ⟨htidy, hexact.single⟩ ((marksExact_iff htidy).mpr hexact.marks) hsteps hrun
  · rintro s y t ⟨htidy, hsingle⟩ hmarks hy ht
    have hexact : s.world.papers.docket.Exact := ⟨(marksExact_iff htidy).mp hmarks, hsingle⟩
    exact ⟨(hy.step htidy ht).2, (hy.marks htidy hexact ht).1⟩
  · rintro s y t ⟨htidy, hsingle⟩ hmarks hy ht
    have hexact : s.world.papers.docket.Exact := ⟨(marksExact_iff htidy).mp hmarks, hsingle⟩
    rw [marksExact_iff (hy.step htidy ht).2]
    exact (hy.marks htidy hexact ht).2

/-- Nothing is rejected. -/
theorem loss_marks_reported :
    Run.Through ChainStep.apply (fun s => s.world.MarksExact) reported lossGenesis := by
  have hrun : (Run.run ChainStep.apply reported lossGenesis).isSome = true := by decide +kernel
  obtain ⟨s, hs⟩ := isSome_iff_exists.mp hrun
  refine (loss_marks_iff plainExternals false _ reported_orderly hs).mpr ?_
  have hsent {number : Nat} {sender dest : Address} {nonce : UInt64} {value : Int} {data : Bytes}
      {code : Code}
      (hop : operationOf dest ≠ .rejectLossReport) (s : StateDB) :
      ¬ (sent number sender nonce dest value data code).Clobbers s := by
    rintro ⟨_, dest', _, _, hdirect, hreject, -⟩
    obtain rfl : dest = dest' := some.inj hdirect.2.toAddr
    exact hop hreject
  exact ⟨id, fun _ _ =>
    ⟨hsent (by decide) _, fun _ _ => ⟨id, fun _ _ => ⟨hsent (by decide) _, fun _ _ =>
    ⟨id, fun _ _ => ⟨hsent (by decide) _, fun _ _ => ⟨id, fun _ _ => trivial⟩⟩⟩⟩⟩⟩⟩

/-- Another report for the same last bits, once the first has been revealed. -/
def reportingAgain : Inclusion :=
  sent 4 0x500 2 0x103 0 (Rlp.encodeList (Rlp.encodeString [1] ++ Rlp.encodeString (Hash.bytes 0)))
    (.halt [] 0 none)

/-- The account that is not lost rejects the first report. -/
def rejecting : Inclusion :=
  sent 5 0x401 1 0x112 0 (Rlp.encodeList (Rlp.encodeString (Address.bytes reportAddress)))
    (.halt [] 0 none)

/-- **The second report loses its mark**, although every transaction passes the checks of the
pool. -/
theorem mark_cleared_under_report :
    Run.Along ChainStep.apply ChainStep.Accepted
      (reported ++ [.transaction reportingAgain, .nextBlock, .transaction rejecting]) lossGenesis ∧
    ∃ s loss, Run.run ChainStep.apply
        (reported ++ [.transaction reportingAgain, .nextBlock, .transaction rejecting])
          lossGenesis = some s ∧
      s.world (createAddress plainExternals 0x500 2) = some loss ∧ loss.accountType = .loss ∧
      loss.lossAccount.state = .apply ∧ loss.lossAccount.lastBits.toNat % 1024 = 1 ∧
      (s.world markAddress).elim false (·.lossMarkAccount.lossMark.getMark 1) = false := by
  refine ⟨by decide +kernel, ?_⟩
  have hfacts : ((Run.run ChainStep.apply
      (reported ++ [.transaction reportingAgain, .nextBlock, .transaction rejecting])
        lossGenesis).bind fun s =>
        (s.world (createAddress plainExternals 0x500 2)).map fun loss =>
          (loss.accountType, loss.lossAccount.state, loss.lossAccount.lastBits.toNat % 1024,
            (s.world markAddress).elim false (·.lossMarkAccount.lossMark.getMark 1))) =
      some (.loss, .apply, 1, false) := by decide +kernel
  obtain ⟨s, hs, h⟩ := bind_eq_some_iff.mp hfacts
  obtain ⟨loss, hloss, h⟩ := map_eq_some_iff.mp h
  obtain ⟨htype, hstate, hbits, hmark⟩ := by simpa only [Prod.mk.injEq] using h
  exact ⟨s, loss, hs, hloss, htype, hstate, hbits, hmark⟩

end ProbeChain
