/-
# Undoing: `revert`, `Snapshot`, `RevertToSnapshot`, `Finalise`

Every journal entry has a `revert`.  There are two shapes of it in `journal.go`.

- One assigns through the object: `db.getStateObject(a).authorizeAccount.VoteValue = &d.prev`.
- The other first reads the record into a variable, `r := db.getStateObject(a).regularAccount`,
  and then assigns the recorded values to `r`.  The records are Go structs, so `r` is a COPY, and
  the assignments are lost when `revert` returns (`revertCopy`).

Both dereference the object, so both panic when it is gone.
-/
import ProbeChain.Lib.Run
import ProbeChain.State.StateDB

namespace ProbeChain

namespace StateDB

/-! ## 1. Reverting one entry -/

/-- Assigns through the object at `a`. -/
def revertObject (s : StateDB) (a : Address) (f : StateObject → StateObject) : Option StateDB :=
  match s.getStateObject a with
  | some o => some (s.setStateObject a (f o))
  | none => none

/-- Assigns to a copy of a record of the object at `a`. -/
def revertCopy (s : StateDB) (a : Address) : Option StateDB :=
  match s.getStateObject a with
  | some _ => some s
  | none => none

end StateDB

open StateDB in
/-- The suicide entries test for nil; the entries from `voteForRegularChange` on work on a copy,
except the two in between that assign through the object. -/
def JournalEntry.revert : JournalEntry → StateDB → Option StateDB
  | .createObjectChange a, s =>
    some { s with stateObjects := Function.update s.stateObjects a none }
  | .resetObjectChange a prev, s => some (s.setStateObject a prev)
  | .regularSuicideChange a suicide voteAccount voteValue lossType value, s =>
    some (s.modifyObject a fun o =>
      { o with
        suicided := suicide
        regularAccount :=
          { o.regularAccount with voteAccount := voteAccount, voteValue := some voteValue,
                                  lossType := lossType, value := value } })
  | .pnsSuicideChange a suicide pnsType owner data, s =>
    some (s.modifyObject a fun o =>
      { o with
        suicided := suicide
        pnsAccount := { pnsType := pnsType, owner := owner, data := data } })
  | .assetSuicideChange a suicide value voteAccount voteValue, s =>
    some (s.modifyObject a fun o =>
      { o with
        suicided := suicide
        assetAccount :=
          { o.assetAccount with
            voteAccount := voteAccount, voteValue := voteValue, value := value } })
  | .authorizeSuicideChange a suicide owner pledgeValue voteValue info validPeriod, s =>
    some (s.modifyObject a fun o =>
      { o with
        suicided := suicide
        authorizeAccount :=
          { owner := owner, pledgeValue := some pledgeValue, voteValue := some voteValue,
            info := info, validPeriod := some validPeriod } })
  | .lossSuicideChange a suicide state lossAccount newAccount height infoDigest, s =>
    some (s.modifyObject a fun o =>
      { o with
        suicided := suicide
        lossAccount :=
          { o.lossAccount with state := state, lostAccount := lossAccount, newAccount := newAccount,
                               height := some height, infoDigest := infoDigest } })
  | .balanceChange a prev, s => s.revertObject a (·.setBalance prev)
  | .nonceChange a prev, s => s.revertObject a (·.setNonce prev)
  | .storageChange a key prevalue, s => s.revertObject a (·.setState key prevalue)
  | .codeChange a prevcode prevhash, s => s.revertObject a (·.setCode prevhash prevcode)
  | .refundChange prev, s => some { s with refund := prev }
  | .addLogChange txhash, s =>
    some { s with logs := Function.update s.logs txhash (s.logs txhash).dropLast
                  logSize := s.logSize - 1 }
  | .voteValueForAuthorizeChange a prev, s =>
    s.revertObject a (·.setAuthorizeVote prev)
  | .lossMarkAccountChange a prev, s =>
    s.revertObject a fun o => { o with lossMarkAccount := { lossMark := prev } }
  | .voteForRegularChange a _ _, s => s.revertCopy a
  | .lossTypeChange a _, s => s.revertCopy a
  | .lossStateChange a _, s => s.revertCopy a
  | .lostAccountVoteChange a _ _, s => s.revertCopy a
  | .revealLossReportChange a _ _ _ _, s => s.revertCopy a
  | .redemptionForRegularChange a _ _ _, s => s.revertCopy a
  | .modifyAuthorizeOwnerChange a _, s => s.revertCopy a
  | .modifyPnsOwnerChange a _, s => s.revertCopy a
  | .modifyPnsContentChange a _ _, s => s.revertCopy a
  | .redemptionForAuthorizeChange a _ _, s => s.revertCopy a
  | .dPosCandidateForAuthorizeChange a _ _, s => s.revertCopy a
  | .dPosCandidateChange a _ _, s => s.revertCopy a

namespace StateDB

/-! ## 2. Snapshots -/

def revertEntry (s : StateDB) (e : JournalEntry) : Option StateDB := e.revert s

/-- Undoes the entries from the newest on. -/
def revertEntries (entries : List JournalEntry) (s : StateDB) : Option StateDB :=
  Run.run revertEntry entries s

/-- Undoes the journal back to the length it had at `snapshot`. -/
def revertJournal (s : StateDB) (snapshot : Nat) : Option StateDB :=
  let k := s.journal.length - snapshot
  (revertEntries (s.journal.take k) s).map fun s' => { s' with journal := s.journal.drop k }

/-- The database with the new snapshot noted, and its identifier. -/
def snapshot (s : StateDB) : StateDB × Nat :=
  ({ s with
     validRevisions := s.validRevisions ++ [⟨s.nextRevisionId, s.journal.length⟩]
     nextRevisionId := s.nextRevisionId + 1
     revision_lt := by
       intro r hr
       rcases List.mem_append.mp hr with h | h
       · exact Nat.lt_succ_of_lt (s.revision_lt r h)
       · rw [List.mem_singleton.mp h]; exact Nat.lt_succ_self _ },
   s.nextRevisionId)

/-- `sort.Search` finds the first snapshot whose identifier is not smaller; it has to be the
one asked for.  It and the later ones are forgotten. -/
def revertToSnapshot (s : StateDB) (revid : Nat) : Option StateDB :=
  match s.validRevisions.dropWhile (fun r => r.id < revid) with
  | [] => none
  | r :: _ =>
    if r.id = revid then
      (s.revertJournal r.journalIndex).map fun s' =>
        { s' with
          validRevisions := s.validRevisions.takeWhile (fun r => r.id < revid)
          nextRevisionId := s.nextRevisionId
          revision_lt := fun r hr =>
            s.revision_lt r ((List.takeWhile_sublist _).subset hr) }
    else none

/-! ## 3. The end of a transaction -/

/-- The accounts the journal has made dirty. -/
def dirties (s : StateDB) : List Address := s.journal.filterMap JournalEntry.dirtied

/-- Dirty suicided accounts are deleted, the others have their storage finalised; the journal,
the refund counter and the snapshots are cleared. -/
def finalise (s : StateDB) : StateDB :=
  { s with
    stateObjects := fun a =>
      (s.stateObjects a).map fun o =>
        if a ∈ s.dirties then (if o.suicided then { o with deleted := true } else o.finalise)
        else o
    journal := []
    refund := if s.journal = [] then s.refund else 0
    validRevisions := []
    revision_lt := by simp }

end StateDB

end ProbeChain
