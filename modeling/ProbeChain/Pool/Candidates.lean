/-
# The candidates of a round

`AddValidatorCandidate` of `core/state`: a candidate that applies replaces its own entry or is
appended, the list is sorted and all but the first 64 are dropped.  A candidate that has been
dropped is forgotten.  That does no harm as long as nobody falls behind by applying again: then
those that are listed at the end are the first 64 of all who have applied (`candidates_first`).

An entry is known by its vote account, and a validator by its owner.  `GetPresetDPosAccounts` takes
one from the other, and nothing keeps an owner from applying with several accounts.  What each
application has to find in the state before it is in `distinct_owners_iff`.
-/
import ProbeChain.Pool.VoteLedger
import ProbeChain.Consensus.Acks

namespace ProbeChain

open Option List World

/-! ## 1. The first of a sorted list -/

/-- What is at the end of a list does not matter for its first `k`: there are so many before, or one
less and the new element comes before the rest. -/
theorem take_orderedInsert_append {α : Type} {r : α → α → Prop} [DecidableRel r] {a : α}
    {rest : List α} :
    ∀ {l : List α} {k : Nat}, k ≤ l.length ∨ k ≤ l.length + 1 ∧ (∀ b ∈ rest, r a b) →
      ((l ++ rest).orderedInsert r a).take k = (l.orderedInsert r a).take k
  | [], 0, _ => rfl
  | [], k + 1, h => by
    obtain ⟨hk, hrest⟩ := h.resolve_left (by simp)
    obtain rfl : k = 0 := by simpa using hk
    cases rest with
    | nil => rfl
    | cons b rest => simp [hrest b mem_cons_self]
  | b :: l, k, h => by
    rw [cons_append, orderedInsert_cons, orderedInsert_cons]
    split
    · rw [← cons_append, ← cons_append, take_append_of_le_length]
      rcases h with h | ⟨h, -⟩
      · exact h.trans (Nat.le_succ _)
      · exact h
    · cases k with
      | zero => rfl
      | succ k =>
        rw [take_succ_cons, take_succ_cons, take_orderedInsert_append]
        exact h.imp Nat.le_of_succ_le_succ (And.imp_left Nat.le_of_succ_le_succ)

/-! ## 2. Sorted candidates

Entries that do not tie are sorted in one way only, so that sorting may come before or after an
entry is replaced.  That the list is cut off does no harm while nobody falls behind. -/

namespace DPoSCandidateAccount

/-- The order in which candidates are listed. -/
abbrev NotAfter (c d : DPoSCandidateAccount) : Prop := ¬ d.less c

instance : Std.Total NotAfter := ⟨not_less_total⟩

instance : IsTrans DPoSCandidateAccount NotAfter := ⟨fun _ _ _ => not_less_trans⟩

/-- They are for different vote accounts and do not tie. -/
def Apart (c d : DPoSCandidateAccount) : Prop :=
  c.voteAccount ≠ d.voteAccount ∧ (c.less d ∨ d.less c)

instance : Std.Symm Apart := ⟨fun _ _ h => ⟨h.1.symm, h.2.symm⟩⟩

end DPoSCandidateAccount

open DPoSCandidateAccount

variable {S : CandidateSort} {l m : List DPoSCandidateAccount} {c : DPoSCandidateAccount}

/-- Without ties there is one way to sort. -/
theorem sort_eq_of_perm (hl : l.Pairwise Apart) (hperm : m.Perm l) (hsorted : m.Pairwise NotAfter) :
    S.sort l = m := by
  refine ((S.perm l).trans hperm.symm).eq_of_pairwise (fun c d hc hd hcd hdc => ?_)
    (S.sorted l) hsorted
  by_contra hne
  have hc := (S.perm l).mem_iff.mp hc
  have hd := hperm.mem_iff.mp hd
  rcases (hl.forall hc hd hne).2 with h | h
  · exact hdc h
  · exact hcd h

theorem sort_cons (hl : (c :: l).Pairwise Apart) :
    S.sort (c :: l) = (S.sort l).orderedInsert NotAfter c :=
  sort_eq_of_perm hl ((perm_orderedInsert _ c _).trans ((S.perm l).cons c))
    ((S.sorted l).orderedInsert c _)

/-- Every vote account has one entry at most. -/
def Separate (l : List DPoSCandidateAccount) : Prop :=
  l.Pairwise fun c d => c.voteAccount ≠ d.voteAccount

/-- The entries of other vote accounts. -/
abbrev others (c : DPoSCandidateAccount) (l : List DPoSCandidateAccount) :
    List DPoSCandidateAccount :=
  l.filter (·.voteAccount ≠ c.voteAccount)

theorem sort_others (hl : l.Pairwise Apart) : S.sort (others c l) = others c (S.sort l) :=
  sort_eq_of_perm (hl.filter _) ((S.perm l).filter _) ((S.sorted l).filter _)

theorem others_cons {d : DPoSCandidateAccount} (hl : Separate (d :: l)) :
    others c (d :: l) = if d.voteAccount = c.voteAccount then l else d :: others c l := by
  split
  next heq =>
    rw [others, filter_cons_of_neg (by simpa using heq), filter_eq_self]
    intro e he
    simpa using fun h => (pairwise_cons.mp hl).1 e he (heq.trans h.symm)
  next hne => exact filter_cons_of_pos (by simpa using hne)

theorem length_le_others (hl : Separate l) : l.length ≤ (others c l).length + 1 := by
  induction l with
  | nil => exact Nat.zero_le _
  | cons d l ih =>
    rw [others_cons hl]
    split
    · exact le_refl _
    · exact Nat.succ_le_succ (ih (pairwise_cons.mp hl).2)

theorem replaceCandidate_perm (hl : Separate l) :
    ((replaceCandidate c l).getD (l ++ [c])).Perm (c :: others c l) := by
  induction l with
  | nil => exact .refl _
  | cons d l ih =>
    have hrest := ih (pairwise_cons.mp hl).2
    rw [replaceCandidate, others_cons hl]
    split
    · exact .refl _
    · -- the entry, if there is one, is further down
      cases hreplace : replaceCandidate c l with
      | none =>
        rw [hreplace] at hrest
        exact (hrest.cons d).trans (.swap c d _)
      | some l' =>
        rw [hreplace] at hrest
        exact (hrest.cons d).trans (.swap c d _)

theorem pairwise_apart_perm (h : l.Perm m) : l.Pairwise Apart ↔ m.Pairwise Apart :=
  h.pairwise_iff fun h => Std.Symm.symm _ _ h

/-- **One application.**  The first 64 stay the first 64 if nobody falls behind. -/
theorem addValidatorCandidate_first {d : ValidatorListAccount} (hl : l.Pairwise Apart)
    (hnew : (c :: others c l).Pairwise Apart)
    (hd : d.validatorCandidates = (S.sort l).take validatorNodeLength)
    (hup : ∀ o ∈ l, o.voteAccount = c.voteAccount → NotAfter c o) :
    (d.addValidatorCandidate S c).validatorCandidates =
      (S.sort (c :: others c l)).take validatorNodeLength := by
  obtain ⟨listed, dropped, hsort, hlisted, hlength⟩ : ∃ listed dropped, S.sort l =
      listed ++ dropped ∧ d.validatorCandidates = listed ∧
      (dropped = [] ∨ validatorNodeLength ≤ listed.length) := by
    refine ⟨_, _, (take_append_drop validatorNodeLength (S.sort l)).symm, hd, ?_⟩
    rw [drop_eq_nil_iff, length_take, le_min_iff]
    omega
  have hsorted := S.sorted l
  have hapart := (pairwise_apart_perm (S.perm l)).mpr hl
  have hnew' := (pairwise_apart_perm (((S.perm l).filter _).cons c)).mpr hnew
  rw [hsort] at hsorted hapart hnew'
  obtain ⟨hsorted₁, -, hbefore⟩ := pairwise_append.mp hsorted
  have hapart₁ := (pairwise_append.mp hapart).1
  rw [filter_append] at hnew'
  have hnew₁ : (c :: others c listed).Pairwise Apart :=
    hnew'.sublist ((sublist_append_left _ _).cons_cons c)
  -- both lists are those that were there, with the new entry inserted
  have hleft : S.sort ((replaceCandidate c listed).getD (listed ++ [c])) =
      (others c listed).orderedInsert NotAfter c := by
    have hperm := replaceCandidate_perm (c := c) (hapart₁.imp And.left)
    refine sort_eq_of_perm ((pairwise_apart_perm hperm).mpr hnew₁) ?_
      ((hsorted₁.filter _).orderedInsert c _)
    exact (perm_orderedInsert _ c _).trans hperm.symm
  have hright : S.sort (c :: others c l) =
      (others c listed ++ others c dropped).orderedInsert NotAfter c := by
    rw [sort_cons hnew, sort_others hl, hsort, others, filter_append]
  have hadd : (d.addValidatorCandidate S c).validatorCandidates =
      (S.sort ((replaceCandidate c listed).getD (listed ++ [c]))).take validatorNodeLength := by
    unfold ValidatorListAccount.addValidatorCandidate
    rw [hlisted]
    cases replaceCandidate c listed <;> rfl
  rw [hadd, hleft, hright]
  rcases hlength with rfl | hlength
  · rw [show others c [] = [] from rfl, append_nil]
  · refine (take_orderedInsert_append ?_).symm
    by_cases hentry : ∃ o ∈ listed, o.voteAccount = c.voteAccount
    · obtain ⟨o, ho, heq⟩ := hentry
      refine .inr ⟨hlength.trans (length_le_others (hapart₁.imp And.left)), fun b hb => ?_⟩
      have hmem : o ∈ l := (S.perm l).mem_iff.mp (by rw [hsort]; exact mem_append_left _ ho)
      exact not_less_trans (hup o hmem heq) (hbefore o ho b (mem_of_mem_filter hb))
    · have hall : others c listed = listed := by
        rw [others, filter_eq_self]
        exact fun o ho => by simpa using fun heq => hentry ⟨o, ho, heq⟩
      rw [hall]
      exact .inl hlength

/-! ## 3. A round

By induction on the applications, with the latest entries of those who have applied so far. -/

/-- The latest entries of all who have applied, the last first. -/
def latest (applications : List DPoSCandidateAccount) : List DPoSCandidateAccount :=
  applications.foldl (fun l c => c :: others c l) []

/-- Nobody falls behind by applying again, and no two candidates tie at any time. -/
def Orderly (applications : List DPoSCandidateAccount) : Prop :=
  ∀ before c after, applications = before ++ c :: after →
    (∀ o ∈ latest before, o.voteAccount = c.voteAccount → NotAfter c o) ∧
    (latest (before ++ [c])).Pairwise fun d e => d.less e ∨ e.less d

theorem latest_concat (applications : List DPoSCandidateAccount) (c : DPoSCandidateAccount) :
    latest (applications ++ [c]) = c :: others c (latest applications) := foldl_concat ..

variable {X : Externals} {applications : List DPoSCandidateAccount}

theorem Orderly.of_concat
    (h : Orderly (applications ++ [c])) : Orderly applications := by
  rintro before d after rfl
  exact h before d (after ++ [c]) (by simp)

theorem separate_latest (applications : List DPoSCandidateAccount) :
    Separate (latest applications) := by
  induction applications using reverseRecOn with
  | nil => exact .nil
  | append_singleton applications c ih =>
    rw [latest_concat]
    refine pairwise_cons.mpr ⟨fun d hd => ?_, ih.filter _⟩
    exact fun h => of_decide_eq_true (mem_filter.mp hd).2 h.symm

theorem Orderly.apart (h : Orderly applications) : (latest applications).Pairwise Apart := by
  induction applications using reverseRecOn with
  | nil => exact .nil
  | append_singleton applications c _ =>
    exact (separate_latest _).and (h applications c [] rfl).2

/-- **All applications of a round.** -/
theorem first_of_applications (roundId : UInt64) (h : Orderly applications) :
    (applications.foldl (ValidatorListAccount.addValidatorCandidate S)
      ⟨[], roundId⟩).validatorCandidates =
      (S.sort (latest applications)).take validatorNodeLength := by
  induction applications using reverseRecOn with
  | nil =>
    have hempty : S.sort [] = [] := perm_nil.mp (S.perm [])
    rw [latest, foldl_nil, foldl_nil, hempty, take_nil]
  | append_singleton applications c ih =>
    rw [foldl_concat, latest_concat]
    refine addValidatorCandidate_first h.of_concat.apart ?_ (ih h.of_concat)
      (h applications c [] rfl).1
    exact latest_concat applications c ▸ h.apart

/-- In the round of the list, an application adds to it. -/
theorem foldl_candidateListed {roundId : UInt64} : ∀ {applications : List DPoSCandidateAccount}
    {list : StateObject}, list.validatorListAccount.roundId = roundId →
    (applications.foldl (fun l c => candidateListed X l c roundId) list).validatorListAccount =
      applications.foldl (ValidatorListAccount.addValidatorCandidate X.candidateSort)
        list.validatorListAccount
  | [], _, _ => rfl
  | c :: applications, list, h => by
    have hsame : (candidateListed X list c roundId).validatorListAccount =
        list.validatorListAccount.addValidatorCandidate X.candidateSort c := by
      rw [candidateListed, h, if_neg (not_not.mpr rfl)]
    rw [foldl_cons, foldl_cons, foldl_candidateListed, hsame]
    rw [hsame]
    exact h

/-- The applications of a round, made to what is left of the round before. -/
def appliedFor (X : Externals) (roundId : UInt64) (list : StateObject)
    (applications : List DPoSCandidateAccount) :
    List DPoSCandidateAccount :=
  (applications.foldl (fun l c => candidateListed X l c roundId)
    list).validatorListAccount.validatorCandidates

/-- The first application of the round is still to come, or the list is empty. -/
def Beginning (roundId : UInt64) (list : StateObject) : Prop :=
  list.validatorListAccount.roundId = roundId → list.validatorListAccount.validatorCandidates = []

theorem appliedFor_eq {roundId : UInt64} {list : StateObject} (hlist : Beginning roundId list)
    (hne : applications ≠ []) (h : Orderly applications) : appliedFor X roundId list applications =
      (X.candidateSort.sort (latest applications)).take validatorNodeLength := by
  rw [← first_of_applications roundId h, appliedFor]
  obtain ⟨c, rest, rfl⟩ := exists_cons_of_ne_nil hne
  have hfirst : (candidateListed X list c roundId).validatorListAccount =
      ValidatorListAccount.addValidatorCandidate X.candidateSort ⟨[], roundId⟩ c := by
    unfold candidateListed
    dsimp only
    split
    next => rfl
    next hround =>
      have hround := (not_not.mp hround).symm
      rw [show list.validatorListAccount = ⟨[], roundId⟩ from by rw [← hlist hround, ← hround]]
  rw [foldl_cons, foldl_cons, foldl_candidateListed, hfirst]
  rw [hfirst]
  rfl

/-- **The candidates of a round** are the first 64 of the latest entries of all who have applied, if
nobody falls behind by applying again and no two tie.  They are sorted, each vote account is listed
once, and the order of the applications does not matter. -/
theorem candidates_first (X : Externals) (roundId : UInt64) (list : StateObject)
    (hlist : Beginning roundId list) (applications : List DPoSCandidateAccount)
    (hne : applications ≠ []) (h : Orderly applications) :
    let listed := appliedFor X roundId list applications
    listed.Pairwise (fun c d => c.less d) ∧ Separate listed ∧
    (∀ S : CandidateSort, listed = (S.sort (latest applications)).take validatorNodeLength) ∧
    ∀ X' list' applications', Beginning roundId list' → applications' ≠ [] → Orderly applications' →
      (latest applications').Perm (latest applications) →
      appliedFor X' roundId list' applications' = listed := by
  intro listed
  have heq : listed = _ := appliedFor_eq hlist hne h
  have hsame : ∀ S : CandidateSort, X.candidateSort.sort (latest applications) =
      S.sort (latest applications) :=
    fun S => sort_eq_of_perm h.apart (S.perm _) (S.sorted _)
  have hstrict : (X.candidateSort.sort (latest applications)).Pairwise fun c d =>
      c.less d ∧ c.voteAccount ≠ d.voteAccount := by
    refine (((pairwise_apart_perm (X.candidateSort.perm _)).mpr h.apart).and
      (X.candidateSort.sorted _)).imp ?_
    rintro c d ⟨⟨haccount, hless⟩, hnot⟩
    exact ⟨hless.resolve_right hnot, haccount⟩
  have hlisted := hstrict.sublist (take_sublist validatorNodeLength _)
  rw [← heq] at hlisted
  refine ⟨hlisted.imp And.left, hlisted.imp And.right, fun S => heq.trans (by rw [hsame S]),
    fun X' list' applications' hlist' hne' h' hperm => ?_⟩
  rw [appliedFor_eq hlist' hne' h', heq,
    sort_eq_of_perm h'.apart ((X.candidateSort.perm _).trans hperm.symm)
    (X.candidateSort.sorted _)]

/-- Two candidates, of whom the second comes first. -/
def twoApplications : List DPoSCandidateAccount := [⟨0, 1, 0x180, 5⟩, ⟨0, 2, 0x181, 7⟩]

theorem candidates_first_two :
    appliedFor plainExternals 1 (.new .dpos) twoApplications =
      [⟨0, 2, 0x181, 7⟩, ⟨0, 1, 0x180, 5⟩] := by
  have horderly : Orderly twoApplications := by
    intro before c after h
    match before, h with
    | [], h =>
      obtain ⟨rfl, -⟩ := cons.inj h
      exact ⟨by simp [latest], by simp [latest]⟩
    | [b], h =>
      obtain ⟨rfl, htail⟩ := cons.inj h
      obtain ⟨rfl, -⟩ := cons.inj htail
      exact ⟨by decide, by decide⟩
    | b :: b' :: before, h => simp [twoApplications] at h
  refine ((candidates_first plainExternals 1 (.new .dpos) (fun _ => rfl) twoApplications
    (cons_ne_nil _ _)
    horderly).2.2.1 .insertion).trans ?_
  decide +kernel

/-! ## 4. Owners

The owner of an applicant is free if it is not listed with another vote account.  That is exactly
what a step needs to keep the owners apart, and `Run.through_iff_along` puts the steps together. -/

/-- `GetPresetDPosAccounts` -/
def getPresetDPosAccounts (candidates : List DPoSCandidateAccount) : List Validator :=
  candidates.map fun c => { enode := c.enode, owner := c.owner }

/-- Every vote account has one entry at most, and there are no more than 64. -/
def Tidy (l : List DPoSCandidateAccount) : Prop := Separate l ∧ l.length ≤ validatorNodeLength

theorem tidy_nil : Tidy [] := ⟨.nil, Nat.zero_le _⟩

theorem Separate.nodup (h : Separate l) : l.Nodup :=
  h.imp fun haccount heq => haccount (congrArg voteAccount heq)

/-- An application replaces or adds an entry and cuts the sorted list off. -/
theorem exists_addValidatorCandidate {d : ValidatorListAccount}
    (h : Separate d.validatorCandidates) (S : CandidateSort) (c : DPoSCandidateAccount) :
    ∃ m : List DPoSCandidateAccount, m.Perm (c :: others c d.validatorCandidates) ∧
    m.Pairwise NotAfter ∧
      (d.addValidatorCandidate S c).validatorCandidates = m.take validatorNodeLength := by
  have hperm := replaceCandidate_perm (c := c) h
  unfold ValidatorListAccount.addValidatorCandidate
  cases hreplace : replaceCandidate c d.validatorCandidates <;> rw [hreplace] at hperm <;>
    exact ⟨_, (S.perm _).trans hperm, S.sorted _, rfl⟩

theorem separate_cons_others (c : DPoSCandidateAccount) (h : Separate l) :
    Separate (c :: others c l) := by
  refine pairwise_cons.mpr ⟨fun e he heq => ?_, h.filter _⟩
  exact of_decide_eq_true (mem_filter.mp he).2 heq.symm

theorem Tidy.addValidatorCandidate {d : ValidatorListAccount} (h : Tidy d.validatorCandidates)
    (S : CandidateSort) (c : DPoSCandidateAccount) :
    Tidy (d.addValidatorCandidate S c).validatorCandidates := by
  obtain ⟨m, hperm, -, hlist⟩ := exists_addValidatorCandidate h.1 S c
  have hsep := (hperm.pairwise_iff fun h => Ne.symm h).mpr (separate_cons_others c h.1)
  rw [hlist]
  exact ⟨hsep.sublist (take_sublist _ _), length_take_le _ _⟩

/-- No two entries have one owner. -/
def OwnersApart (l : List DPoSCandidateAccount) : Prop := (l.map (·.owner)).Nodup

theorem ownersApart_iff (h : l.Nodup) :
    OwnersApart l ↔ ∀ c ∈ l, ∀ d ∈ l, c.owner = d.owner → c = d := by
  refine ⟨fun hnodup c hc d hd => inj_on_of_nodup_map hnodup hc hd, fun hinj => ?_⟩
  exact Nodup.map_on (fun c hc d hd => hinj c hc d hd) h

/-- The owner of an applicant is not listed with another vote account.  A full list may do with
one: then it is the later of the two that is cut off, if all the others come before it. -/
def OwnerFree (c : DPoSCandidateAccount) (l : List DPoSCandidateAccount) : Prop :=
  ∀ d ∈ others c l, d.owner = c.owner → (others c l).length = validatorNodeLength ∧
    ∀ e ∈ others c l, e ≠ d → e.less c ∨ e.less d

theorem owner_eq_of_not_less {c d : DPoSCandidateAccount} (hcd : ¬ c.less d) (hdc : ¬ d.less c) :
    c.owner = d.owner := by
  unfold less at hcd hdc
  split_ifs at hcd hdc <;> simp only [decide_eq_true_eq] at hcd hdc
  · exact BitVec.eq_of_toNat_eq (by omega)
  all_goals omega

theorem eq_of_length_le_one {α : Type} {l : List α} (h : l.length ≤ 1) {x y : α} (hx : x ∈ l)
    (hy : y ∈ l) : x = y := by
  match l, h with
  | [z], _ => rw [mem_singleton.mp hx, mem_singleton.mp hy]

/-- What is kept of the sorted entries, and what is cut off: at most one, which comes last. -/
structure Cut (c : DPoSCandidateAccount) (l kept dropped : List DPoSCandidateAccount) : Prop where
  mem : ∀ e, e = c ∨ e ∈ others c l ↔ e ∈ kept ∨ e ∈ dropped
  before : ∀ e ∈ kept, ∀ x ∈ dropped, ¬ x.less e
  apart : ∀ e ∈ kept, e ∉ dropped
  single : dropped.length ≤ 1
  full : 0 < dropped.length ↔ (others c l).length = validatorNodeLength

theorem cut_of_sorted (h : Tidy l) (hperm : m.Perm (c :: others c l))
    (hsorted : m.Pairwise NotAfter) :
    Cut c l (m.take validatorNodeLength) (m.drop validatorNodeLength) := by
  have hnodup : m.Nodup := hperm.nodup_iff.mpr (separate_cons_others c h.1).nodup
  have hsplit := take_append_drop validatorNodeLength m
  have hcount := hperm.length_eq
  rw [length_cons] at hcount
  have hle : (others c l).length ≤ validatorNodeLength := (length_filter_le _ _).trans h.2
  rw [← hsplit, pairwise_append] at hsorted
  rw [← hsplit, nodup_append] at hnodup
  refine ⟨fun e => ?_, hsorted.2.2, fun e he hd => hnodup.2.2 e he e hd rfl, ?_, ?_⟩
  · rw [← mem_append, hsplit, hperm.mem_iff, mem_cons]
  · rw [length_drop]
    omega
  · rw [length_drop]
    omega

section
variable {kept dropped : List DPoSCandidateAccount} (h : Cut c l kept dropped)
  (hinj : ∀ e ∈ others c l, ∀ f ∈ others c l, e.owner = f.owner → e = f)
include h hinj

/-- One of two entries with one owner is cut off, and all the others come before it. -/
theorem Cut.ownerFree (hkept : ∀ e ∈ kept, ∀ f ∈ kept, e.owner = f.owner → e = f) :
    OwnerFree c l := by
  intro d hd howner
  have hne : ∀ e ∈ others c l, e ≠ c := by
    rintro e he rfl
    exact of_decide_eq_true (mem_filter.mp he).2 rfl
  obtain ⟨x, hx, hcut⟩ : ∃ x, (x = c ∨ x = d) ∧ x ∈ dropped := by
    rcases (h.mem c).mp (.inl rfl) with hc | hc
    · rcases (h.mem d).mp (.inr hd) with hd' | hd'
      · exact absurd (hkept d hd' c hc howner) (hne d hd)
      · exact ⟨d, .inr rfl, hd'⟩
    · exact ⟨c, .inl rfl, hc⟩
  refine ⟨h.full.mp (length_pos_of_mem hcut), fun e he hed => ?_⟩
  have hxowner : x.owner = d.owner := by
    rcases hx with rfl | rfl
    · exact howner.symm
    · rfl
  have hex : e ≠ x := by
    rcases hx with rfl | rfl
    · exact hne e he
    · exact hed
  have hstays : e ∈ kept := ((h.mem e).mp (.inr he)).resolve_right fun hdrop =>
    hex (eq_of_length_le_one h.single hdrop hcut)
  have hless : e.less x := by
    by_contra hnot
    have heq := owner_eq_of_not_less hnot (h.before e hstays x hcut)
    exact hed (hinj e he d hd (heq.trans hxowner))
  rcases hx with rfl | rfl
  · exact .inl hless
  · exact .inr hless

/-- Of two entries with one owner one would be the applicant, and neither is the last. -/
theorem Cut.owner_inj (hfree : OwnerFree c l) :
    ∀ e ∈ kept, ∀ f ∈ kept, e.owner = f.owner → e = f := by
  have hclash : ∀ e ∈ others c l, e.owner = c.owner → c ∈ kept → e ∉ kept := by
    intro e he howner hc hkept
    obtain ⟨hfull, hbeforeAll⟩ := hfree e he howner
    obtain ⟨x, hx⟩ := exists_mem_of_length_pos (h.full.mpr hfull)
    rcases (h.mem x).mpr (.inr hx) with rfl | hother
    · exact h.apart x hc hx
    · have hxe : x ≠ e := by
        rintro rfl
        exact h.apart x hkept hx
      rcases hbeforeAll x hother hxe with hless | hless
      · exact h.before c hc x hx hless
      · exact h.before e hkept x hx hless
  intro e he f hf howner
  rcases (h.mem e).mpr (.inl he) with rfl | he'
  · rcases (h.mem f).mpr (.inl hf) with rfl | hf'
    · rfl
    · exact absurd hf (hclash f hf' howner.symm he)
  · rcases (h.mem f).mpr (.inl hf) with rfl | hf'
    · exact absurd he (hclash e he' howner hf)
    · exact hinj e he' f hf' howner

end

/-- **One application keeps the owners apart if and only if the owner of the applicant is free.**
If two entries have one owner, the applicant is one of them, and one of the two has to go. -/
theorem ownersApart_addValidatorCandidate_iff {d : ValidatorListAccount}
    (h : Tidy d.validatorCandidates) (howners : OwnersApart d.validatorCandidates)
    (S : CandidateSort) (c : DPoSCandidateAccount) :
    OwnersApart (d.addValidatorCandidate S c).validatorCandidates ↔
      OwnerFree c d.validatorCandidates := by
  obtain ⟨m, hperm, hsorted, hlist⟩ := exists_addValidatorCandidate h.1 S c
  have hcut := cut_of_sorted h hperm hsorted
  have hothers := (ownersApart_iff h.1.nodup).mp howners
  have hinj : ∀ e ∈ others c _, ∀ f ∈ others c _, e.owner = f.owner → e = f := fun e he f hf =>
    hothers e (mem_of_mem_filter he) f (mem_of_mem_filter hf)
  have hnodup : m.Nodup := hperm.nodup_iff.mpr (separate_cons_others c h.1).nodup
  rw [hlist, ownersApart_iff (hnodup.sublist (take_sublist _ _))]
  exact ⟨hcut.ownerFree hinj, hcut.owner_inj hinj⟩

namespace StateObject

-- Of what these operations write, the lists show only the applications.

theorem cashless_lists : Cashless (·.validatorListAccount) {} := by
  refine ⟨fun o x => ?_, rfl⟩
  cases o with
  | mk t => cases t <;> rfl

theorem voteless_lists : Voteless (·.validatorListAccount) := {}

theorem unreported_lists : Unreported (·.validatorListAccount) {} := {}

end StateObject

/-- The list of the candidates, which may not be there yet. -/
abbrev World.listed (w : World) : ValidatorListAccount :=
  w.view (·.validatorListAccount) {} specialAddressForDPoS

/-- The candidates in a state. -/
def StateDB.candidates (s : StateDB) : List DPoSCandidateAccount :=
  s.world.listed.validatorCandidates

/-- A registration, a vote or an application. -/
def Submission.Elects (m : Submission) : Prop :=
  m.tx.toAddr.map operationOf ∈
    [some .registerPns, some .registerAuthorize, some .registerLose, some .vote,
      some .applyToBeDPoSNode]

/-- The list that an application finds, which is a new one in a new round, and its entry. -/
def World.entry (w : World) (ctx : TxContext) :
    Option (ValidatorListAccount × DPoSCandidateAccount) :=
  (decodeApplyDPos ctx.data).bind fun decode =>
  (w decode.voteAddress).bind fun o =>
  o.authorizeAccount.voteValue.bind fun voteValue =>
  ctx.blockNumber.bind fun number =>
  (calcValidatorRoundId (.ofNat number) ctx.pobEpoch).map fun roundId =>
    (if roundId ≠ w.listed.roundId then ⟨[], roundId⟩ else w.listed,
      { enode := bytesToValidatorEnode decode.nodeInfo, owner := o.authorizeAccount.owner,
        voteAccount := decode.voteAddress, voteValue := voteValue })

theorem World.listed_applyToBeDPoSNode {w w' : World} {ctx : TxContext}
    (hw : w.applyToBeDPoSNode X ctx = some w') :
    (∃ list c, w.entry ctx = some (list, c) ∧
      w'.listed = list.addValidatorCandidate X.candidateSort c) ∨ w.entry ctx = none ∧ w' = w := by
  unfold World.applyToBeDPoSNode at hw
  unfold World.entry
  split at hw
  next hdecode =>
    rw [hdecode]
    exact .inr ⟨rfl, (some.inj hw).symm⟩
  next decode hdecode =>
    rw [hdecode, bind_some]
    split at hw
    next hnone => exact .inr ⟨by rw [hnone, bind_none], (some.inj hw).symm⟩
    next o ho =>
      obtain ⟨voteValue, hvalue, hw⟩ := bind_eq_some_iff.mp hw
      obtain ⟨number, hnumber, hw⟩ := bind_eq_some_iff.mp hw
      obtain ⟨roundId, hround, hw⟩ := bind_eq_some_iff.mp hw
      obtain rfl := some.inj hw
      rw [ho, bind_some, hvalue, bind_some, hnumber, bind_some, hround, map_some]
      refine .inl ⟨_, _, rfl, ?_⟩
      rw [listed, view_put, if_pos rfl, candidateListed, listed, view]
      cases w specialAddressForDPoS <;> rfl

/-- The list is empty in a new round. -/
theorem World.list_of_entry {w : World} {ctx : TxContext} {list : ValidatorListAccount}
    (h : w.entry ctx = some (list, c)) : list.validatorCandidates = [] ∨ list = w.listed := by
  unfold World.entry at h
  simp only [bind_eq_some_iff, map_eq_some_iff, Prod.mk.injEq] at h
  obtain ⟨-, -, -, -, -, -, -, -, roundId, -, rfl, -⟩ := h
  split
  · exact .inl rfl
  · exact .inr rfl

namespace Submission

/-- An application, as it is executed. -/
def applies (s : StateDB) (m : Submission) : Option (ValidatorListAccount × DPoSCandidateAccount) :=
  if m.tx.toAddr.map operationOf = some .applyToBeDPoSNode then
    m.tx.sender.bind fun sender => s.world.entry (m.tx.context sender m.pobEpoch m.blockNumber)
  else none

/-- Whoever applies owns no other entry of the list it is put on. -/
def OwnerFree (s : StateDB) (m : Submission) : Prop :=
  ∀ list c, m.applies s = some (list, c) → ProbeChain.OwnerFree c list.validatorCandidates

variable {s s' : StateDB} {m : Submission}

/-- **What a step does to the candidates**: an application adds its entry, and nothing else
changes the list.  (An account that is registered at the address of the list finds none there.) -/
theorem candidates_step (hm : m.Elects) (hstep : m.step X s = some s') :
    (∃ list c, m.applies s = some (list, c) ∧
      s'.world.listed = list.addValidatorCandidate X.candidateSort c) ∨
    m.applies s = none ∧ (s'.candidates = s.candidates ∨ s'.candidates = []) := by
  obtain ⟨sender, hsender, -, hcall⟩ := Submission.step_eq_some hstep
  have hw := world_callDB hcall
  unfold World.callDB at hw
  unfold Elects at hm
  rw [applies, hsender, bind_some]
  split at hw
  next hnone =>
    rw [show m.tx.toAddr = none from hnone]
    exact .inr ⟨if_neg nofun, .inl (congrArg (·.listed.validatorCandidates) (some.inj hw).symm)⟩
  next dest hto =>
    rw [show m.tx.toAddr = some dest from hto, map_some] at hm ⊢
    have hregistered {w : World} {a : Address} {o : StateObject}
        (ho : o.validatorListAccount.validatorCandidates = [])
        (hview : w.view (·.validatorListAccount) {} =
          (s.world.put a o).view (·.validatorListAccount) {}) (hs' : w = s'.world) :
        s'.candidates = s.candidates ∨ s'.candidates = [] := by
      rw [StateDB.candidates, ← hs', World.listed, hview, view_put]
      split
      · exact .inr ho
      · exact .inl rfl
    have hcredit := view_credit StateObject.cashless_lists
    cases hop : operationOf dest <;> rw [hop] at hw hm <;> dsimp only at hw
    case applyToBeDPoSNode =>
      rw [if_pos rfl]
      refine (World.listed_applyToBeDPoSNode hw).imp_right fun ⟨hentry, heq⟩ => ⟨hentry, .inl ?_⟩
      exact congrArg (·.listed.validatorCandidates) heq
    case registerPns =>
      exact .inr ⟨if_neg nofun, hregistered (o := newPns _) rfl (hcredit _ _ _) (some.inj hw)⟩
    case registerAuthorize =>
      exact .inr ⟨if_neg nofun, hregistered (o := newAuthorize _) rfl (hcredit _ _ _) (some.inj hw)⟩
    case registerLose =>
      have hmarked := World.view_updateLossMark StateObject.unreported_lists
      exact .inr ⟨if_neg nofun, hregistered (o := newLoss _) rfl
        ((hcredit _ _ _).trans (hmarked _ _ true)) (some.inj hw)⟩
    case vote =>
      have hkept := World.view_vote StateObject.voteless_lists StateObject.cashless_lists hw
      exact .inr ⟨if_neg nofun,
        .inl (congrArg (fun v => (v specialAddressForDPoS).validatorCandidates) hkept)⟩
    all_goals simp at hm

/-- The list that an application finds is in order if that of the state is. -/
theorem list_of_applies {P : List DPoSCandidateAccount → Prop} (hnil : P []) (h : P s.candidates)
    {list : ValidatorListAccount} (happlies : m.applies s = some (list, c)) :
    P list.validatorCandidates := by
  unfold applies at happlies
  split at happlies
  · obtain ⟨sender, -, hentry⟩ := bind_eq_some_iff.mp happlies
    rcases World.list_of_entry hentry with hnew | rfl
    · rwa [hnew]
    · exact h
  · cases happlies

theorem tidy_step (h : Tidy s.candidates) (hm : m.Elects) (hstep : m.step X s = some s') :
    Tidy s'.candidates := by
  rcases candidates_step hm hstep with ⟨list, c, happlies, hlisted⟩ | ⟨-, hkept | hnone⟩
  · rw [StateDB.candidates, hlisted]
    exact (list_of_applies tidy_nil h happlies).addValidatorCandidate _ _
  · rwa [hkept]
  · rw [hnone]
    exact tidy_nil

/-- **One step keeps the owners apart if and only if the owner of an applicant is free.** -/
theorem ownersApart_step_iff (h : Tidy s.candidates) (howners : OwnersApart s.candidates)
    (hm : m.Elects) (hstep : m.step X s = some s') :
    OwnersApart s'.candidates ↔ m.OwnerFree s := by
  rcases candidates_step hm hstep with ⟨list, c, happlies, hlisted⟩ | ⟨hnone, hkept⟩
  · rw [StateDB.candidates, hlisted, ownersApart_addValidatorCandidate_iff
      (list_of_applies tidy_nil h happlies)
      (list_of_applies (P := OwnersApart) nodup_nil howners happlies)]
    refine ⟨fun hfree list' c' happlies' => ?_, fun hfree => hfree list c happlies⟩
    cases happlies.symm.trans happlies'
    exact hfree
  · refine iff_of_true ?_ fun list c happlies => ?_
    · rcases hkept with hkept | hkept <;> rw [hkept]
      · exact howners
      · exact nodup_nil
    · rw [hnone] at happlies
      cases happlies

end Submission

/-- The validators of a state have different owners, and enough of them to meet the quorum. -/
def StateDB.OwnersSuffice (s : StateDB) : Prop :=
  let owners := (getPresetDPosAccounts s.candidates).map (·.owner)
  owners.Nodup ∧ checkAckNumMin owners.toFinset.card owners.length = true

/-- If all owners are different, then all of them are enough. -/
theorem ownersSuffice_iff {s : StateDB} : s.OwnersSuffice ↔ OwnersApart s.candidates := by
  have howners : (getPresetDPosAccounts s.candidates).map (·.owner) = s.candidates.map (·.owner) :=
    map_map
  unfold StateDB.OwnersSuffice OwnersApart
  rw [howners]
  refine ⟨And.left, fun hnodup => ⟨hnodup, ?_⟩⟩
  rw [toFinset_card_of_nodup hnodup, checkAckNumMin]
  split
  · rfl
  · exact decide_eq_true (by omega)

/-- **When the validators have different owners**, and enough of them to meet the quorum, all along
a run of registrations, votes and applications that the pool accepts: exactly if they have at the
start, and nobody applies with an account while the owner of it is listed with another one.  Only
a full list allows for that, if one of the two entries is the one that is dropped. -/
theorem distinct_owners_iff (X : Externals) (s s' : StateDB) (ms : List Submission)
    (hs : Tidy s.candidates) (hms : ∀ m ∈ ms, m.Elects)
    (hrun : Run.run (fun s m => m.step X s) ms s = some s') :
    Run.Through (fun s m => m.step X s) StateDB.OwnersSuffice ms s ↔
      s.OwnersSuffice ∧ Run.Along (fun s m => m.step X s) (fun s m => m.OwnerFree s) ms s := by
  by_cases hstart : s.OwnersSuffice
  · rw [and_iff_right hstart]
    refine Run.through_iff_along (K := fun s => Tidy s.candidates) (P := fun _ m => m.Elects)
      (fun h _ hm hstep => Submission.tidy_step h hm hstep) (fun h howners hm hstep => ?_) hs hstart
      (Run.along_of_forall (fun m hm _ => hms m hm) s) hrun
    rw [ownersSuffice_iff] at howners ⊢
    exact Submission.ownersApart_step_iff h howners hm hstep
  · exact iff_of_false (fun h => hstart h.head) fun h => hstart h.1

/-- Account `1` registers an Authorize account. -/
def registerWith (nonce : UInt64) : Submission :=
  { registerFifty with tx := { registerFifty.tx with nonce := nonce } }

/-- Account `1` applies with an Authorize account. -/
def applyWith (voteAccount : Address) : Submission :=
  { ledgerCall 0x106 0 [] with
    tx := { (ledgerCall 0x106 0 []).tx with
            data := Rlp.encodeList
                (Rlp.encodeString voteAccount.bytes ++ Rlp.encodeString dPosNodePrefix) }
    pobEpoch := 100
    blockNumber := some 101 }

/-- It does so with four of them. -/
def fourAccounts : List Submission :=
  [registerWith 0, registerWith 32, registerWith 33, registerWith 34,
    applyWith 0x180, applyWith 0x120, applyWith 0x121, applyWith 0x122]

/-- There is no quorum of one owner. -/
theorem one_owner_four_validators :
    ∃ s', Run.run (fun s m => m.step plainExternals s) fourAccounts oneAccount = some s' ∧
    (∀ m ∈ fourAccounts, m.Elects) ∧
    let owners := (getPresetDPosAccounts s'.candidates).map (·.owner)
    owners = [1, 1, 1, 1] ∧ checkAckNumMin owners.toFinset.card owners.length = false := by
  obtain ⟨s', hrun, howners⟩ : ∃ s',
      Run.run (fun s m => m.step plainExternals s) fourAccounts oneAccount = some s' ∧
      (getPresetDPosAccounts s'.candidates).map (·.owner) = [1, 1, 1, 1] := ⟨_, rfl, rfl⟩
  refine ⟨s', hrun, by unfold Submission.Elects; decide, ?_⟩
  rw [howners]
  decide

/-- With one account there is, and it may apply again. -/
theorem distinct_owners_one : ∃ s', Run.run (fun s m => m.step plainExternals s)
      [registerWith 0, applyWith 0x180, applyWith 0x180] oneAccount = some s' ∧
    s'.candidates.length = 1 ∧ Run.Through (fun s m => m.step plainExternals s)
      StateDB.OwnersSuffice [registerWith 0, applyWith 0x180, applyWith 0x180] oneAccount := by
  refine ⟨_, rfl, rfl, (distinct_owners_iff plainExternals _ _ _ ?_ ?_ rfl).mpr ⟨?_, ?_⟩⟩
  · exact tidy_nil
  · unfold Submission.Elects
    decide
  · exact ownersSuffice_iff.mpr nodup_nil
  · -- nobody else is ever listed
    refine ⟨?_, fun s hs => ⟨?_, fun s' hs' => ⟨?_, fun _ _ => trivial⟩⟩⟩ <;> intro list c happlies
    · exact absurd (show none = some (list, c) from happlies) (Option.some_ne_none _).symm
    · obtain rfl := some.inj hs
      obtain ⟨rfl, rfl⟩ := Prod.mk.inj (some.inj happlies)
      exact fun d hd => absurd (show d ∈ [] from hd) not_mem_nil
    · obtain rfl := some.inj hs
      obtain rfl := some.inj hs'
      obtain ⟨rfl, rfl⟩ := Prod.mk.inj (some.inj happlies)
      exact fun d hd => absurd (show d ∈ [] from hd) not_mem_nil

end ProbeChain
