/-
# Difficulty and the choice between forks

`CalcDifficulty` of `consensus/pob/pob.go` and the part of `writeBlockWithState` of
`core/blockchain.go` that adds up difficulties and decides whether the head moves.

`CalcDifficulty` gives one for every block.  `verifyHeader` asks only that the difficulty of a
header is POSITIVE, so the producer writes what it likes there, and the block that claims most wins.
`importByRules` is the same import with the difficulty that the rules give.
`difficulty_by_rules_iff` says for which blocks the two are the same: those that claim no more than
one.

Whatever is claimed, the head is a heaviest block of all that have come in (`heaviest_through`).
-/
import ProbeChain.Consensus.Body

namespace ProbeChain

open Check Option UInt64

/-! ## 1. The choice -/

def diffNoTurn : Nat := 1

/-- Neither the time nor the parent is looked at. -/
def calcDifficulty (_time : UInt64) (_parent : Header) : Nat := diffNoTurn

/-- What the two blocks of a choice have besides their difficulty: whether the local miner made
them, and the coin that is tossed. -/
structure TieBreak where
  currentPreserve : Bool := false
  blockPreserve : Bool := false
  coin : Bool := false

/-- Whether the head moves to the new block. -/
def forkChoice (externTd localTd : Nat) (number currentNumber : UInt64) (tie : TieBreak) : Bool :=
  if localTd < externTd then true
  else if externTd = localTd then
    if number < currentNumber then true
    else if number = currentNumber then !tie.currentPreserve && (tie.blockPreserve || tie.coin)
    else false
  else false

/-- The total difficulties that are stored, and the head. -/
structure ForkState where
  getTd : Hash → UInt64 → Option Nat
  currentBlock : Header

/-- `difficulty` is that of the block.  Without the total difficulty of the parent, or of the head,
nothing is written. -/
def writeBlockWithState (K : Crypto) (s : ForkState) (header : Header) (difficulty : Nat)
    (tie : TieBreak) : Option ForkState :=
  let number := ofNat header.number
  let currentNumber := ofNat s.currentBlock.number
  (s.getTd header.parentHash (number - 1)).bind fun ptd =>
  (s.getTd (s.currentBlock.hash K) currentNumber).map fun localTd =>
    let externTd := difficulty + ptd
    { getTd := fun hash n =>
        if n = number ∧ hash = header.hash K then some externTd else s.getTd hash n
      currentBlock :=
        if forkChoice externTd localTd number currentNumber tie then header else s.currentBlock }

theorem writeBlockWithState_eq {K : Crypto} {s : ForkState} {header : Header} {tie : TieBreak}
    {ptd localTd : Nat} (difficulty : Nat)
    (hptd : s.getTd header.parentHash (ofNat header.number - 1) = some ptd)
    (hlocal : s.getTd (s.currentBlock.hash K) (ofNat s.currentBlock.number) = some localTd) :
    writeBlockWithState K s header difficulty tie = some
      { getTd := fun hash n => if n = ofNat header.number ∧ hash = header.hash K then
          some (difficulty + ptd) else s.getTd hash n
        currentBlock := if forkChoice (difficulty + ptd) localTd (ofNat header.number)
          (ofNat s.currentBlock.number) tie then header else s.currentBlock } := by
  rw [writeBlockWithState, hptd, hlocal]
  rfl

/-- **Of two blocks on one parent** the second takes the place of the first if it claims more. -/
theorem writeBlockWithState_rivals {K : Crypto} {s : ForkState} {h₁ h₂ : Header}
    {d₁ d₂ ptd localTd : Nat} (hparent : h₂.parentHash = h₁.parentHash)
    (hnumber : h₂.number = h₁.number)
    (hptd : s.getTd h₁.parentHash (UInt64.ofNat h₁.number - 1) = some ptd)
    (hlocal : s.getTd (s.currentBlock.hash K) (UInt64.ofNat s.currentBlock.number) = some localTd)
    (hmoves : localTd < d₁ + ptd) :
    ((writeBlockWithState K s h₁ d₁ {}).bind fun s₁ =>
      writeBlockWithState K s₁ h₂ d₂ {}).map ForkState.currentBlock =
        some (if d₁ < d₂ then h₂ else h₁) := by
  have hother : ¬ (UInt64.ofNat h₁.number - 1 = UInt64.ofNat h₁.number) := by
    intro h
    exact absurd (UInt64.sub_eq_iff_eq_add.mp h) (by simp)
  rw [writeBlockWithState_eq d₁ hptd hlocal, bind_some, forkChoice, if_pos hmoves, if_pos rfl]
  rw [@writeBlockWithState_eq K _ _ _ ptd (d₁ + ptd) d₂]
  · rw [hnumber, map_some]
    by_cases h : d₁ < d₂
    · simp [forkChoice, h]
    · have hnot : ¬ d₁ + ptd < d₂ + ptd := by omega
      simp [forkChoice, h, hnot]
  · rw [hparent, hnumber]
    exact (if_neg fun h => hother h.1).trans hptd
  · exact if_pos ⟨rfl, rfl⟩

/-! ## 2. Importing a block -/

/-- A block as it comes in: what else the chain holds at that moment, the clock and the tie
break. -/
structure Import (K : Crypto) (config : ChainConfig) where
  bc : BlockChain K config
  block : ExtBlock
  unixNow : Int64
  tie : TieBreak := {}

namespace Import

variable {K : Crypto} {config : ChainConfig}

def Accepted (T : TrieHasher) (e : Import K config) : Prop :=
  e.bc.verifyHeader e.block.header e.unixNow = .ok () ∧ e.bc.validateBody T e.block = .ok ()

instance (T : TrieHasher) (e : Import K config) : Decidable (e.Accepted T) :=
  inferInstanceAs (Decidable (_ ∧ _))

/-- What `CalcDifficulty` gives for the real parent and the time of the block. -/
def ruledDifficulty (e : Import K config) : Option Nat :=
  (e.bc.findRealParentHeader e.block.header.parentHash
    (ofNat e.block.header.number - 1).toNat 1).map
      fun p => calcDifficulty e.block.header.time p.1

/-- Blocks that are not accepted are not part of a run. -/
def importWith (difficulty : Import K config → Nat) (T : TrieHasher) (s : ForkState)
    (e : Import K config) : Option ForkState :=
  if e.Accepted T then writeBlockWithState K s e.block.header (difficulty e) e.tie else none

/-- The code takes the difficulty from the header. -/
def importBlock : TrieHasher → ForkState → Import K config → Option ForkState :=
  importWith fun e => e.block.header.difficulty.getD 0

/-- The rules take it from `CalcDifficulty`. -/
def importByRules : TrieHasher → ForkState → Import K config → Option ForkState :=
  importWith fun e => e.ruledDifficulty.getD 0

/-! ## 3. The code and the rules -/

/-- The producer claims no more than the rules give, and no less where the engine does not look. -/
def ClaimsNoMore (e : Import K config) : Prop :=
  e.block.header.difficulty.getD 0 ≤ diffNoTurn ∧
    (e.bc.engine.fakeDiff = true → 0 < e.block.header.difficulty.getD 0)

variable {T : TrieHasher} {e : Import K config}

/-- What acceptance says of the difficulty. -/
theorem Accepted.difficulty (h : e.Accepted T) :
    (∃ p, e.bc.findRealParentHeader e.block.header.parentHash
      (ofNat e.block.header.number - 1).toNat 1 = some p) ∧
    (e.bc.engine.fakeDiff = true ∨ 0 < e.block.header.difficulty.getD 0) := by
  have hheader := h.1
  cases hreal : e.bc.findRealParentHeader e.block.header.parentHash
      (ofNat e.block.header.number - 1).toNat 1 with
  | none =>
    rw [BlockChain.verifyHeader, hreal] at hheader
    cases hheader
  | some p =>
    obtain ⟨parent, diff⟩ := p
    rw [BlockChain.verifyHeader_eq hreal, mapError_eq_ok, verifyHeader_eq_ok] at hheader
    obtain ⟨-, -, -, hdifficulty, -⟩ := hheader
    exact ⟨⟨_, rfl⟩, require_eq_ok.mp hdifficulty⟩

theorem Accepted.ruledDifficulty_eq (h : e.Accepted T) : e.ruledDifficulty = some diffNoTurn := by
  obtain ⟨⟨p, hreal⟩, -⟩ := h.difficulty
  rw [ruledDifficulty, hreal]
  rfl

/-- **One block.**  It has the difficulty of the rules if and only if it claims no more. -/
theorem Accepted.difficulty_eq_iff (h : e.Accepted T) :
    e.block.header.difficulty = e.ruledDifficulty ↔ e.ClaimsNoMore := by
  rw [h.ruledDifficulty_eq]
  unfold ClaimsNoMore diffNoTurn
  cases hd : e.block.header.difficulty with
  | none =>
    refine iff_of_false nofun ?_
    rintro ⟨-, hfake⟩
    rcases h.difficulty.2 with hengine | hpos
    · exact absurd (hfake hengine) (by simp)
    · rw [hd] at hpos
      exact absurd hpos (by simp)
  | some d =>
    have hpos : e.bc.engine.fakeDiff = true ∨ 0 < d := by
      have := h.difficulty.2
      rwa [hd] at this
    simp only [some.injEq, getD_some]
    constructor
    · rintro rfl
      exact ⟨le_refl _, fun _ => Nat.one_pos⟩
    · rintro ⟨hle, hfake⟩
      have : 0 < d := hpos.elim hfake id
      omega

theorem run_importWith_congr {f g : Import K config → Nat} {es : List (Import K config)}
    (h : ∀ e ∈ es, f e = g e) (s : ForkState) :
    Run.run (importWith f T) es s = Run.run (importWith g T) es s := by
  induction es generalizing s with
  | nil => rfl
  | cons e es ih =>
    have hstep : importWith f T s e = importWith g T s e := by
      unfold importWith
      rw [h e List.mem_cons_self]
    rw [Run.run, Run.run, hstep]
    exact bind_congr fun t _ => ih (fun e he => h e (List.mem_cons_of_mem _ he)) t

/-- **The difficulties, their totals and the head are those of the rules**, over any sequence of
accepted blocks and from any state, if and only if no block claims more than the rules give. -/
theorem difficulty_by_rules_iff (es : List (Import K config)) (haccepted : ∀ e ∈ es, e.Accepted T) :
    ((∀ e ∈ es, e.block.header.difficulty = e.ruledDifficulty) ∧
      ∀ s, Run.run (importBlock T) es s = Run.run (importByRules T) es s) ↔
    ∀ e ∈ es, e.ClaimsNoMore := by
  constructor
  · rintro ⟨hdifficulty, -⟩ e he
    exact (haccepted e he).difficulty_eq_iff.mp (hdifficulty e he)
  · intro hclaims
    have hdifficulty : ∀ e ∈ es, e.block.header.difficulty = e.ruledDifficulty := fun e he =>
      (haccepted e he).difficulty_eq_iff.mpr (hclaims e he)
    refine ⟨hdifficulty, fun s => run_importWith_congr (fun e he => ?_) s⟩
    rw [hdifficulty e he]

/-- The only validator's block of height one, and a rival of it that claims a difficulty of 1000. -/
def honestImport : Import plainCrypto ⟨none, none⟩ :=
  { bc := genesisBlocks [{ owner := 1 }], block := firstBlock 1 [] [], unixNow := 2000 }

def greedyImport : Import plainCrypto ⟨none, none⟩ :=
  { bc := genesisBlocks [{ owner := 1 }]
    block := { firstBlock 1 [] [] with
      header := { (firstBlock 1 [] []).header with difficulty := some 1000, nonce := 1 } }
    unixNow := 2000 }

theorem honestImport_accepted : honestImport.Accepted plainHasher :=
  ⟨firstBlock_verified, firstBlock_accepted⟩

theorem greedyImport_accepted : greedyImport.Accepted plainHasher :=
  ⟨by decide +kernel, by decide +kernel⟩

/-- The genesis block is the head. -/
def genesisFork : ForkState where
  getTd hash n := if n = 0 ∧ hash = genesisHash then some 1 else none
  currentBlock := genesisHeader

theorem difficulty_by_rules_honest :
    Run.run (importBlock plainHasher) [honestImport] genesisFork =
      Run.run (importByRules plainHasher) [honestImport] genesisFork :=
  ((difficulty_by_rules_iff [honestImport]
    (List.forall_mem_singleton.mpr honestImport_accepted)).mpr
    (List.forall_mem_singleton.mpr ⟨by decide, by decide⟩)).2 genesisFork

/-- Both blocks, one after the other, with the difficulty that `f` gives each. -/
theorem run_rivals (f : Import plainCrypto ⟨none, none⟩ → Nat) (hpos : 0 < f honestImport) :
    (Run.run (importWith f plainHasher) [honestImport, greedyImport] genesisFork).map
      ForkState.currentBlock = some (if f honestImport < f greedyImport then
        greedyImport.block.header else honestImport.block.header) := by
  have hlocal : genesisFork.getTd (genesisFork.currentBlock.hash plainCrypto)
      (ofNat genesisFork.currentBlock.number) = some 1 := by
    rw [show genesisFork.currentBlock = genesisHeader from rfl, hash_genesisHeader]
    rfl
  have hptd : genesisFork.getTd honestImport.block.header.parentHash
      (ofNat honestImport.block.header.number - 1) = some 1 := rfl
  have hrun : Run.run (importWith f plainHasher) [honestImport, greedyImport] genesisFork =
      (writeBlockWithState plainCrypto genesisFork honestImport.block.header (f honestImport)
        {}).bind fun s => writeBlockWithState plainCrypto s greedyImport.block.header
          (f greedyImport) {} := by
    rw [Run.run, importWith, if_pos honestImport_accepted]
    refine Option.bind_congr fun s _ => ?_
    rw [Run.run, importWith, if_pos greedyImport_accepted]
    exact Option.bind_fun_some _
  rw [hrun]
  exact writeBlockWithState_rivals rfl rfl hptd hlocal (Nat.lt_add_of_pos_left hpos)

/-- **The block that claims most wins.**  By the rules the head would have stayed. -/
theorem difficulty_claimed :
    honestImport.Accepted plainHasher ∧ greedyImport.Accepted plainHasher ∧
    greedyImport.block.header.difficulty ≠ greedyImport.ruledDifficulty ∧
    (Run.run (importBlock plainHasher) [honestImport, greedyImport] genesisFork).map
      ForkState.currentBlock = some greedyImport.block.header ∧
    (Run.run (importByRules plainHasher) [honestImport, greedyImport] genesisFork).map
      ForkState.currentBlock = some honestImport.block.header := by
  have hhonest := honestImport_accepted.ruledDifficulty_eq
  have hgreedy := greedyImport_accepted.ruledDifficulty_eq
  refine ⟨honestImport_accepted, greedyImport_accepted, ?_, ?_, ?_⟩
  · rw [hgreedy]
    decide
  · exact run_rivals _ (by decide)
  · refine (run_rivals _ (by rw [hhonest]; decide)).trans ?_
    rw [hhonest, hgreedy]
    rfl

/-! ## 4. The head -/

/-- A block that is known is not written again. -/
def importNew (T : TrieHasher) (s : ForkState) (e : Import K config) : Option ForkState :=
  if s.getTd (e.block.header.hash K) (ofNat e.block.header.number) = none then
    importBlock T s e else none

/-- The genesis block is written with its own difficulty. -/
def ofGenesis (K : Crypto) (genesis : Header) (difficulty : Nat) : ForkState where
  getTd hash n := if n = ofNat genesis.number ∧ hash = genesis.hash K then some difficulty else none
  currentBlock := genesis

/-- No block has a larger total difficulty than the head. -/
def Heaviest (K : Crypto) (s : ForkState) : Prop :=
  ∃ td, s.getTd (s.currentBlock.hash K) (ofNat s.currentBlock.number) = some td ∧
    ∀ hash n td', s.getTd hash n = some td' → td' ≤ td

theorem forkChoice_le {externTd localTd : Nat} {number currentNumber : UInt64} {tie : TieBreak} :
    if forkChoice externTd localTd number currentNumber tie then localTd ≤ externTd
    else externTd ≤ localTd := by
  unfold forkChoice
  split_ifs <;> first | omega | contradiction

theorem Heaviest.importNew {s t : ForkState} (h : Heaviest K s)
    (himport : importNew T s e = some t) :
    Heaviest K t := by
  obtain ⟨localTd, hhead, hmax⟩ := h
  obtain ⟨hnew, himport⟩ := ite_none_right_eq_some.mp himport
  obtain ⟨-, himport⟩ := ite_none_right_eq_some.mp himport
  obtain ⟨ptd, hptd, -⟩ := bind_eq_some_iff.mp himport
  rw [writeBlockWithState_eq _ hptd hhead] at himport
  cases himport
  generalize e.block.header.difficulty.getD 0 + ptd = externTd
  refine ⟨max localTd externTd, ?_, fun hash n td' htd => ?_⟩
  · have hchoice :=
      @forkChoice_le externTd localTd (ofNat e.block.header.number)
        (ofNat s.currentBlock.number) e.tie
    dsimp only
    split at hchoice
    next hmoves => rw [if_pos hmoves, if_pos ⟨rfl, rfl⟩, max_eq_right hchoice]
    next hstays =>
      rw [if_neg hstays, if_neg ?_, hhead, max_eq_left hchoice]
      -- the block would be known if it were the head
      rintro ⟨hnumber, hhash⟩
      rw [hnumber, hhash, hnew] at hhead
      cases hhead
  · dsimp only at htd
    split at htd
    · exact (some.inj htd).ge.trans (le_max_right _ _)
    · exact (hmax hash n td' htd).trans (le_max_left _ _)

/-- **The head is a heaviest block** at all times, whatever blocks come in. -/
theorem heaviest_through (T : TrieHasher) (genesis : Header) (difficulty : Nat)
    (es : List (Import K config)) :
    Run.Through (importNew T) (Heaviest K) es (ofGenesis K genesis difficulty) := by
  have hgenesis : Heaviest K (ofGenesis K genesis difficulty) :=
    ⟨difficulty, if_pos ⟨rfl, rfl⟩, fun hash n td' htd =>
      (some.inj (ite_none_right_eq_some.mp htd).2).ge⟩
  generalize ofGenesis K genesis difficulty = s at hgenesis ⊢
  induction es generalizing s with
  | nil => exact hgenesis
  | cons e es ih => exact ⟨hgenesis, fun t ht => ih t (hgenesis.importNew ht)⟩

end Import

end ProbeChain
