/-
# Headers, acks and what their signatures cover

`core/types/block.go`, and `PobRLP` of `consensus/pob/pob.go`.  A header is hashed with all of its
fields.  Its producer signs fewer: not the signature itself, and neither `MixDigest`, `Nonce`,
`AtomicTime` nor the last byte of `Extra` (`pobRLP`).  `pobRLP_inj` says that the rest is determined
by what is signed.

A decoded header has a number, and so has every ack and proof in it; these are plain numbers here.
`Difficulty` and `BaseFee` may be nil.  A nil amount is encoded like zero.  `AtomicTime` may be nil,
which is something else than empty: an empty one is present, and written.
-/
import ProbeChain.Common.Crypto

namespace ProbeChain

open BigEndian List Rlp.Item

/-! ## 1. Words -/

abbrev BlockNonce := BitVec 64
abbrev Bloom := BitVec 2048

def BlockNonce.bytes (n : BlockNonce) : Bytes := ofNatWidth 8 n.toNat
def Bloom.bytes (b : Bloom) : Bytes := ofNatWidth 256 b.toNat

theorem BlockNonce.bytes_inj {m n : BlockNonce} (h : BlockNonce.bytes m = BlockNonce.bytes n) :
    m = n :=
  word_bytes_inj (w := 8) h

theorem Bloom.bytes_inj {b c : Bloom} (h : Bloom.bytes b = Bloom.bytes c) : b = c :=
  word_bytes_inj (w := 256) h

/-! ## 2. Acks -/

/-- `AckTypeAgree`, `AckTypeOppose` and the other values of the byte. -/
abbrev AckType := UInt8

def ackTypeAgree : AckType := 0
def ackTypeOppose : AckType := 1

structure Ack where
  epochPosition : UInt8 := 0
  number : Nat
  blockHash : Hash
  ackType : AckType
  witnessSig : Bytes
  deriving DecidableEq

@[ext] structure AckCount where
  blockNumber : Nat
  ackCount : UInt64
  deriving DecidableEq

/-- What a validator signs of an ack. -/
def Ack.sigItem (ack : Ack) : Rlp.Item :=
  .list [.nat ack.epochPosition.toNat, .nat ack.number, .str (Hash.bytes ack.blockHash),
    .nat ack.ackType.toNat]

def Ack.hash (K : Crypto) (ack : Ack) : Hash := K.keccak256 ack.sigItem.encode

def Ack.item (ack : Ack) : Rlp.Item :=
  .list [.nat ack.epochPosition.toNat, .nat ack.number, .str (Hash.bytes ack.blockHash),
    .nat ack.ackType.toNat, .str ack.witnessSig]

theorem Ack.item_inj {a b : Ack} (h : a.item = b.item) : a = b := by
  have hlist := list.inj h
  simp only [cons.injEq, nat_inj, str.injEq, and_true] at hlist
  obtain ⟨hposition, hnumber, hhash, htype, hsig⟩ := hlist
  rw [Ack.mk.injEq]
  exact ⟨UInt8.toNat_inj.mp hposition, hnumber, Hash.bytes_inj hhash,
    UInt8.toNat_inj.mp htype, hsig⟩

/-- The error of `UnmarshalPubkey` is assigned to a variable of its own and lost: the zero address
is returned without an error then. -/
def Ack.recoverOwner (K : Crypto) (ack : Ack) : Option Address :=
  match K.recoverPubkey (ack.hash K) ack.witnessSig with
  | none => none
  | some pubkey =>
    match K.unmarshalPubkey pubkey with
    | some publicKey => some (K.pubkeyToAddress publicKey)
    | none => some 0

/-- The digest of no acks is that of the empty list, too. -/
def calcAckHash (K : Crypto) (acks : List Ack) : Hash :=
  K.keccak256 (list (acks.map Ack.item)).encode

/-! ## 3. Headers -/

@[ext] structure BehaviorProof where
  number : Nat
  mixDigest : Hash
  nonce : BlockNonce
  miner : Address
  blockHash : Hash := 0
  deriving DecidableEq

/-- A zero `BlockHash` is optional and left out. -/
def BehaviorProof.item (p : BehaviorProof) : Rlp.Item :=
  .list ([.nat p.number, .str (Hash.bytes p.mixDigest), .str (BlockNonce.bytes p.nonce),
    .str (Address.bytes p.miner)] ++
    if p.blockHash = 0 then [] else [.str (Hash.bytes p.blockHash)])

def AckCount.item (c : AckCount) : Rlp.Item :=
  .list [.nat c.blockNumber, .nat c.ackCount.toNat]

theorem BehaviorProof.item_inj {p q : BehaviorProof} (h : p.item = q.item) : p = q := by
  have hlist := list.inj h
  simp only [cons_append, nil_append, cons.injEq, nat_inj,
    str.injEq] at hlist
  obtain ⟨hnumber, hmix, hnonce, hminer, hhash⟩ := hlist
  have hblock : p.blockHash = q.blockHash := by
    -- a hash that is left out is zero
    by_cases hp : p.blockHash = 0 <;> by_cases hq : q.blockHash = 0
    · rw [hp, hq]
    · rw [if_pos hp, if_neg hq] at hhash
      cases hhash
    · rw [if_neg hp, if_pos hq] at hhash
      cases hhash
    · rw [if_neg hp, if_neg hq] at hhash
      exact Hash.bytes_inj (str.inj (cons.inj hhash).1)
  exact BehaviorProof.ext hnumber (Hash.bytes_inj hmix) (BlockNonce.bytes_inj hnonce)
    (Address.bytes_inj hminer) hblock

theorem AckCount.item_inj {c d : AckCount} (h : c.item = d.item) : c = d := by
  have hlist := list.inj h
  simp only [cons.injEq, nat_inj, and_true] at hlist
  exact AckCount.ext hlist.1 (UInt64.toNat_inj.mp hlist.2)

structure Header where
  validatorAddr : Address := 0
  validatorSig : Bytes := []
  ackCountList : List AckCount := []
  acksHash : Hash := 0
  behaviorProofs : List BehaviorProof := []
  parentHash : Hash := 0
  uncleHash : Hash := 0
  coinbase : Address := 0
  root : Hash := 0
  txHash : Hash := 0
  receiptHash : Hash := 0
  bloom : Bloom := 0
  difficulty : Option Nat := some 1
  number : Nat := 0
  gasLimit : UInt64 := 0
  gasUsed : UInt64 := 0
  time : UInt64 := 0
  extra : Bytes := []
  mixDigest : Hash := 0
  nonce : BlockNonce := 0
  baseFee : Option Nat := none
  atomicTime : Option Bytes := none
  deriving DecidableEq

namespace Header

/-- The fields between `ValidatorSig` and `Extra`, which both encodings share. -/
def items (h : Header) : List Rlp.Item :=
  [.list (h.ackCountList.map AckCount.item), .str (Hash.bytes h.acksHash),
    .list (h.behaviorProofs.map BehaviorProof.item), .str (Hash.bytes h.parentHash),
    .str (Hash.bytes h.uncleHash), .str (Address.bytes h.coinbase), .str (Hash.bytes h.root),
    .str (Hash.bytes h.txHash), .str (Hash.bytes h.receiptHash), .str (Bloom.bytes h.bloom),
    .nat (h.difficulty.getD 0), .nat h.number, .nat h.gasLimit.toNat, .nat h.gasUsed.toNat,
    .nat h.time.toNat]

/-- The optional fields.  `BaseFee` is written if `AtomicTime` is, even when it is nil. -/
def optionalItems (h : Header) : List Rlp.Item :=
  match h.atomicTime, h.baseFee with
  | some t, fee => [.nat (fee.getD 0), .str t]
  | none, some fee => [.nat fee]
  | none, none => []

/-- `AtomicTime` where only its bytes matter: nil has none. -/
def atomicBytes (h : Header) : Bytes := h.atomicTime.getD []

/-- What `Hash` hashes. -/
def rlp (h : Header) : Bytes :=
  (list (.str (Address.bytes h.validatorAddr) :: .str h.validatorSig ::
    (h.items ++ [.str h.extra, .str (Hash.bytes h.mixDigest), .str (BlockNonce.bytes h.nonce)] ++
      h.optionalItems))).encode

def hash (K : Crypto) (h : Header) : Hash := K.keccak256 h.rlp

/-- `VisualBlockExtra` -/
def visualBlockExtra : Bytes := Hash.bytes 0x76aefdbcb7691c71da412a5670f2

def isVisual (h : Header) : Bool := h.extra = visualBlockExtra

/-- What the producer signs.  `Extra` without its last byte panics when it is empty. -/
def pobRLP (h : Header) : Option Bytes :=
  if h.extra = [] then none
  else some (list (.str (Address.bytes h.validatorAddr) ::
    (h.items ++ .str h.extra.dropLast :: (h.baseFee.map nat).toList))).encode

/-! ## 4. What is signed is determined -/

/-- The two headers agree in everything their producers sign. -/
structure SameSigned (h₁ h₂ : Header) : Prop where
  validatorAddr : h₁.validatorAddr = h₂.validatorAddr
  ackCountList : h₁.ackCountList = h₂.ackCountList
  acksHash : h₁.acksHash = h₂.acksHash
  behaviorProofs : h₁.behaviorProofs = h₂.behaviorProofs
  parentHash : h₁.parentHash = h₂.parentHash
  uncleHash : h₁.uncleHash = h₂.uncleHash
  coinbase : h₁.coinbase = h₂.coinbase
  root : h₁.root = h₂.root
  txHash : h₁.txHash = h₂.txHash
  receiptHash : h₁.receiptHash = h₂.receiptHash
  bloom : h₁.bloom = h₂.bloom
  difficulty : h₁.difficulty.getD 0 = h₂.difficulty.getD 0
  number : h₁.number = h₂.number
  gasLimit : h₁.gasLimit = h₂.gasLimit
  gasUsed : h₁.gasUsed = h₂.gasUsed
  time : h₁.time = h₂.time
  extra : h₁.extra.dropLast = h₂.extra.dropLast
  baseFee : h₁.baseFee = h₂.baseFee

theorem length_items (h : Header) : h.items.length = 15 := rfl

variable {h₁ h₂ : Header}

theorem items_inj (h : h₁.items = h₂.items) :
    h₁.ackCountList = h₂.ackCountList ∧ h₁.acksHash = h₂.acksHash ∧
    h₁.behaviorProofs = h₂.behaviorProofs ∧ h₁.parentHash = h₂.parentHash ∧
    h₁.uncleHash = h₂.uncleHash ∧ h₁.coinbase = h₂.coinbase ∧ h₁.root = h₂.root ∧
    h₁.txHash = h₂.txHash ∧ h₁.receiptHash = h₂.receiptHash ∧ h₁.bloom = h₂.bloom ∧
    h₁.difficulty.getD 0 = h₂.difficulty.getD 0 ∧ h₁.number = h₂.number ∧
    h₁.gasLimit = h₂.gasLimit ∧ h₁.gasUsed = h₂.gasUsed ∧ h₁.time = h₂.time := by
  simp only [items, cons.injEq, list.injEq, str.injEq, nat_inj,
    UInt64.toNat_inj, and_true] at h
  obtain ⟨hcounts, hacks, hproofs, hparent, huncle, hcoinbase, hroot, htx, hreceipt,
      hbloom, hrest⟩ :=
    h
  exact ⟨(map_inj_right fun _ _ => AckCount.item_inj).mp hcounts, Hash.bytes_inj hacks,
    (map_inj_right fun _ _ => BehaviorProof.item_inj).mp hproofs, Hash.bytes_inj hparent,
    Hash.bytes_inj huncle, Address.bytes_inj hcoinbase, Hash.bytes_inj hroot, Hash.bytes_inj htx,
    Hash.bytes_inj hreceipt, Bloom.bytes_inj hbloom, hrest⟩

/-- **What is signed determines the signed fields.**  The length of a byte slice is a machine
word. -/
theorem pobRLP_inj {b : Bytes} (hb : b.length < 2 ^ 64)
    (e₁ : h₁.pobRLP = some b) (e₂ : h₂.pobRLP = some b) : SameSigned h₁ h₂ := by
  unfold pobRLP at e₁ e₂
  split at e₁
  · cases e₁
  split at e₂
  · cases e₂
  obtain rfl := Option.some.inj e₁
  have hitem := list.inj (encode_inj hb (Option.some.inj e₂).symm)
  obtain ⟨haddr, hrest⟩ := cons.inj hitem
  obtain ⟨hitems, htail⟩ := append_inj hrest (by rw [length_items, length_items])
  obtain ⟨hextra, hfee⟩ := cons.inj htail
  obtain ⟨h1, h2, h3, h4, h5, h6, h7, h8, h9, h10, h11, h12, h13, h14, h15⟩ := items_inj hitems
  refine ⟨Address.bytes_inj (str.inj haddr), h1, h2, h3, h4, h5, h6, h7, h8, h9, h10, h11,
    h12, h13, h14, h15, str.inj hextra, ?_⟩
  cases hf₁ : h₁.baseFee <;> cases hf₂ : h₂.baseFee <;> simp [hf₁, hf₂] at hfee
  · rfl
  · rw [nat_inj.mp hfee]

/-! ## 5. What is read of the hashed bytes -/

/-- The header as it is decoded again: a nil that is written comes back as zero. -/
def decoded (h : Header) : Header :=
  { h with
    difficulty := some (h.difficulty.getD 0)
    baseFee := if h.atomicTime.isSome then some (h.baseFee.getD 0) else h.baseFee }

end Header

end ProbeChain
