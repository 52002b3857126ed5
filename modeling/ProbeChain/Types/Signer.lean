/-
# Who sent a transaction

The signers of `core/types/transaction_signing.go`.  A signer says what of a transaction is signed
(`sigBytes`), how a signature is put into it (`withSignature`) and whose it is (`sender`).  The
signers of the later forks pass on what they do not know to the one before them.

No signer knows an agent transaction, and only that of the Dilithium fork knows the superlight ones,
which have a fork of their own.  None signs the chain id that a transaction names: it signs its own,
and `sign_sender_iff` says for which transactions that comes to the same.
-/
import ProbeChain.Types.Transaction
import ProbeChain.Lib.Check

namespace ProbeChain

open BigEndian Check List Rlp.Item

/-! ## 1. What is read of a transaction -/

/-- `deriveChainId` -/
def deriveChainId (v : Nat) : Nat :=
  if v < 2 ^ 64 then
    if v = 27 ∨ v = 28 then 0 else ((UInt64.ofNat v - 35) / 2).toNat
  else (v - 35) / 2

def isProtectedV (v : Nat) : Bool := if v < 256 then v ≠ 27 && v ≠ 28 && v ≠ 1 && v ≠ 0 else true

namespace TxData

/-- The accessors of `TxData`.  The gas price is the fee cap in all types. -/
def fields : TxData → FeeFields
  | legacy tx =>
    ⟨deriveChainId tx.v, tx.nonce, tx.gasPrice, tx.gasPrice, tx.gas, tx.toAddr, tx.value,
      tx.data, []⟩
  | accessList tx => ⟨tx.chainID, tx.nonce, tx.gasPrice, tx.gasPrice, tx.gas, tx.toAddr, tx.value,
      tx.data, tx.accessList⟩
  | dynamicFee tx => tx.toFeeFields
  | dilithium tx => tx.toFeeFields
  | superlight tx => tx.toFeeFields
  | agent tx => tx.toFeeFields

/-- A Dilithium transaction has none of these values. -/
def rawSignatureValues : TxData → SignatureValues
  | legacy tx => tx.toSignatureValues
  | accessList tx => tx.toSignatureValues
  | dynamicFee tx => tx.toSignatureValues
  | dilithium _ => {}
  | superlight tx => tx.toSignatureValues
  | agent tx => tx.toSignatureValues

def setSignatureValues (chainID : Nat) (g : SignatureValues) : TxData → TxData
  | legacy tx => legacy { tx with toSignatureValues := g }
  | accessList tx => accessList { tx with chainID := chainID, toSignatureValues := g }
  | dynamicFee tx => dynamicFee { tx with chainID := chainID, toSignatureValues := g }
  | dilithium tx => dilithium { tx with chainID := chainID }
  | superlight tx => superlight { tx with chainID := chainID, toSignatureValues := g }
  | agent tx => agent { tx with chainID := chainID, toSignatureValues := g }

def isProtected : TxData → Bool
  | legacy tx => isProtectedV tx.v
  | _ => true

end TxData

/-! ## 2. Signatures -/

inductive SenderError where
  | txTypeNotSupported
  | invalidChainId
  | invalidSig
  | recoverFailed
  | invalidPublicKey
  /-- A panic. -/
  | wrongSignatureSize
  deriving DecidableEq, Repr

def secp256k1N : Nat := 0xfffffffffffffffffffffffffffffffebaaedce6af48a03bbfd25e8cd0364141
def secp256k1halfN : Nat := secp256k1N / 2

def validateSignatureValues (v : UInt8) (r s : Nat) (homestead : Bool) : Bool :=
  if r < 1 ∨ s < 1 then false
  else if homestead = true ∧ secp256k1halfN < s then false
  else r < secp256k1N && s < secp256k1N && (v = 0 || v = 1)

/-- `[R || S || V]` -/
def decodeSignature (sig : Bytes) : Except SenderError SignatureValues := do
  require (sig.length = 65) .wrongSignatureSize
  return { r := toNat (sig.take 32), s := toNat ((sig.drop 32).take 32),
           v := (sig.getD 64 0 + 27).toNat }

/-- The address of the key that the signature recovers to.  `Vb` counts from 27. -/
def recoverPlain (K : Crypto) (sighash : Hash) (R S : Nat) (Vb : Int) (homestead : Bool) :
    Except SenderError Address := do
  require (Vb.natAbs < 256) .invalidSig
  let V := UInt8.ofNat Vb.natAbs - 27
  require (validateSignatureValues V R S homestead = true) .invalidSig
  let pub ← getOr (K.recoverPubkey sighash (ofNatWidth 32 R ++ ofNatWidth 32 S ++ [V]))
      .recoverFailed
  require (pub.head? = some 4) .invalidPublicKey
  return (K.keccak256 (pub.drop 1)).setWidth 160

def recoverDilithium (K : Crypto) (sighash : Hash) (pubkey sig : Bytes) :
    Except SenderError Address := do
  let pub ← getOr (K.unmarshalPublicKey pubkey) .invalidSig
  require (K.verify pub (Hash.bytes sighash) sig = true) .invalidSig
  return K.dilithiumPubkeyToAddress pub

/-! ## 3. The signers -/

/-- `ChainID` and the forks that choose a signer or a transaction type. -/
structure SignerConfig where
  chainID : Option Nat := none
  homesteadBlock : Option Nat := none
  eip155Block : Option Nat := none
  berlinBlock : Option Nat := none
  londonBlock : Option Nat := none
  dilithiumBlock : Option Nat := none
  superlightBlock : Option Nat := none
  agentConsensusBlock : Option Nat := none
  deriving DecidableEq

/-- Each with the chain id it was made with. -/
inductive Signer where
  | frontier
  | homestead
  | eip155 (chainId : Nat)
  | eip2930 (chainId : Nat)
  | london (chainId : Nat)
  | dilithium (chainId : Nat)
  deriving DecidableEq

/-- A missing chain id is zero. -/
def makeSigner (config : SignerConfig) (blockNumber : Nat) : Signer :=
  let chainId := config.chainID.getD 0
  if isForked config.dilithiumBlock blockNumber then .dilithium chainId
  else if isForked config.londonBlock blockNumber then .london chainId
  else if isForked config.berlinBlock blockNumber then .eip2930 chainId
  else if isForked config.eip155Block blockNumber then .eip155 chainId
  else if isForked config.homesteadBlock blockNumber then .homestead
  else .frontier

/-- What is signed of a legacy transaction. -/
def legacySigItems (tx : TxData) : List Rlp.Item :=
  let f := tx.fields
  [.nat f.nonce.toNat, .nat f.gasFeeCap, .nat f.gas.toNat, addressItem f.toAddr, .nat f.value,
    .str f.data]

/-- What is signed of a transaction with a tip and a fee cap, after its type. -/
def feeSigItems (chainId : Nat) (tx : TxData) : List Rlp.Item :=
  FeeFields.items { tx.fields with chainID := chainId } ++ [accessListItem tx.fields.accessList]

def eip155SigBytes (chainId : Nat) (tx : TxData) : Bytes :=
  (list (legacySigItems tx ++ [.nat chainId, .nat 0, .nat 0])).encode

def eip2930SigBytes (chainId : Nat) (tx : TxData) : Option Bytes :=
  match tx with
  | .legacy _ => some (eip155SigBytes chainId tx)
  | .accessList _ => some (tx.txType :: (list
      (.nat chainId :: legacySigItems tx ++ [accessListItem tx.fields.accessList])).encode)
  | _ => none

def londonSigBytes (chainId : Nat) (tx : TxData) : Option Bytes :=
  match tx with
  | .dynamicFee _ => some (tx.txType :: (list (feeSigItems chainId tx)).encode)
  | _ => eip2930SigBytes chainId tx

def dilithiumSigBytes (chainId : Nat) (tx : TxData) : Option Bytes :=
  match tx with
  | .superlight _ => some (tx.txType :: (list (feeSigItems chainId tx)).encode)
  | .dilithium _ => some (tx.txType :: (list (feeSigItems chainId tx)).encode)
  | _ => londonSigBytes chainId tx

/-- `Sender` of a type whose recovery id is 0 or 1. -/
def senderTyped (K : Crypto) (chainId : Nat) (sighash : Hash) (tx : TxData) :
    Except SenderError Address := do
  let g := tx.rawSignatureValues
  require (tx.fields.chainID = chainId) .invalidChainId
  recoverPlain K sighash g.r g.s ((g.v : Int) + 27) true

/-- `SignatureValues` of such a type.  A chain id of zero counts as not given. -/
def signatureValuesTyped (chainId : Nat) (tx : TxData) (sig : Bytes) :
    Except SenderError SignatureValues := do
  require (tx.fields.chainID = 0 ∨ tx.fields.chainID = chainId) .invalidChainId
  let g ← decodeSignature sig
  return { g with v := (sig.getD 64 0).toNat }

namespace Signer

/-- What the signer signs of a transaction, of those it knows. -/
def sigBytes (s : Signer) (tx : TxData) : Option Bytes :=
  match s with
  | frontier => some (list (legacySigItems tx)).encode
  | homestead => some (list (legacySigItems tx)).encode
  | eip155 chainId => some (eip155SigBytes chainId tx)
  | eip2930 chainId => eip2930SigBytes chainId tx
  | london chainId => londonSigBytes chainId tx
  | dilithium chainId => dilithiumSigBytes chainId tx

/-- Of a transaction it does not know, the empty hash. -/
def hash (K : Crypto) (s : Signer) (tx : TxData) : Hash :=
  match s.sigBytes tx with
  | some b => K.keccak256 b
  | none => 0

def chainID : Signer → Option Nat
  | frontier => none
  | homestead => none
  | eip155 chainId => some chainId
  | eip2930 chainId => some chainId
  | london chainId => some chainId
  | dilithium chainId => some chainId

def homesteadSender (K : Crypto) (tx : TxData) (homesteadRules : Bool) :
    Except SenderError Address := do
  require (tx.txType = legacyTxType) .txTypeNotSupported
  let g := tx.rawSignatureValues
  recoverPlain K (hash K homestead tx) g.r g.s g.v homesteadRules

def eip155Sender (K : Crypto) (chainId : Nat) (tx : TxData) : Except SenderError Address := do
  require (tx.txType = legacyTxType) .txTypeNotSupported
  if tx.isProtected = false then homesteadSender K tx true
  else
    require (tx.fields.chainID = chainId) .invalidChainId
    let g := tx.rawSignatureValues
    recoverPlain K (hash K (eip155 chainId) tx) g.r g.s ((g.v : Int) - 2 * chainId - 8) true

def eip2930Sender (K : Crypto) (chainId : Nat) (tx : TxData) : Except SenderError Address :=
  match tx with
  | .legacy _ =>
    if tx.isProtected = false then homesteadSender K tx true
    else do
      require (tx.fields.chainID = chainId) .invalidChainId
      let g := tx.rawSignatureValues
      recoverPlain K (hash K (eip2930 chainId) tx) g.r g.s ((g.v : Int) - 2 * chainId - 8) true
  | .accessList _ => senderTyped K chainId (hash K (eip2930 chainId) tx) tx
  | _ => .error .txTypeNotSupported

def londonSender (K : Crypto) (chainId : Nat) (tx : TxData) : Except SenderError Address :=
  match tx with
  | .dynamicFee _ => senderTyped K chainId (hash K (london chainId) tx) tx
  | _ => eip2930Sender K chainId tx

def dilithiumSender (K : Crypto) (chainId : Nat) (tx : TxData) : Except SenderError Address :=
  match tx with
  | .superlight _ => senderTyped K chainId (hash K (dilithium chainId) tx) tx
  | .dilithium dtx => do
    require (dtx.chainID = chainId) .invalidChainId
    recoverDilithium K (hash K (dilithium chainId) tx) dtx.pubKey dtx.signature
  | _ => londonSender K chainId tx

def sender (K : Crypto) (s : Signer) (tx : TxData) : Except SenderError Address :=
  match s with
  | frontier => homesteadSender K tx false
  | homestead => homesteadSender K tx true
  | eip155 chainId => eip155Sender K chainId tx
  | eip2930 chainId => eip2930Sender K chainId tx
  | london chainId => londonSender K chainId tx
  | dilithium chainId => dilithiumSender K chainId tx

def frontierSignatureValues (tx : TxData) (sig : Bytes) : Except SenderError SignatureValues := do
  require (tx.txType = legacyTxType) .txTypeNotSupported
  decodeSignature sig

def eip155SignatureValues (chainId : Nat) (tx : TxData) (sig : Bytes) :
    Except SenderError SignatureValues := do
  require (tx.txType = legacyTxType) .txTypeNotSupported
  let g ← decodeSignature sig
  return if chainId = 0 then g else { g with v := (sig.getD 64 0 + 35).toNat + 2 * chainId }

def eip2930SignatureValues (chainId : Nat) (tx : TxData) (sig : Bytes) :
    Except SenderError SignatureValues :=
  match tx with
  | .legacy _ => eip155SignatureValues chainId tx sig
  | .accessList _ => signatureValuesTyped chainId tx sig
  | _ => .error .txTypeNotSupported

def londonSignatureValues (chainId : Nat) (tx : TxData) (sig : Bytes) :
    Except SenderError SignatureValues :=
  match tx with
  | .dynamicFee _ => signatureValuesTyped chainId tx sig
  | _ => eip2930SignatureValues chainId tx sig

def dilithiumSignatureValues (chainId : Nat) (tx : TxData) (sig : Bytes) :
    Except SenderError SignatureValues :=
  match tx with
  | .superlight _ => signatureValuesTyped chainId tx sig
  | .dilithium _ => .ok {}
  | _ => londonSignatureValues chainId tx sig

def signatureValues (s : Signer) (tx : TxData) (sig : Bytes) : Except SenderError SignatureValues :=
  match s with
  | frontier => frontierSignatureValues tx sig
  | homestead => frontierSignatureValues tx sig
  | eip155 chainId => eip155SignatureValues chainId tx sig
  | eip2930 chainId => eip2930SignatureValues chainId tx sig
  | london chainId => londonSignatureValues chainId tx sig
  | dilithium chainId => dilithiumSignatureValues chainId tx sig

def withSignature (s : Signer) (tx : TxData) (sig : Bytes) : Except SenderError TxData := do
  let g ← s.signatureValues tx sig
  return tx.setSignatureValues (s.chainID.getD 0) g

end Signer

/-! ## 4. Keys -/

/-- **Keys that work.**  Signing makes the signatures that recovery and verification take: 65 bytes
`[R || S || V]` with a low `S` and a `V` of 0 or 1, from which the public key is recovered, and
Dilithium signatures that verify. -/
structure Keys (K : Crypto) where
  PrivateKey : Type
  publicKey : PrivateKey → K.EcdsaKey
  sign : Hash → PrivateKey → Bytes
  length_sign : ∀ h k, (sign h k).length = 65
  valid_sign : ∀ h k, validateSignatureValues ((sign h k).getD 64 0) (toNat ((sign h k).take 32))
    (toNat (((sign h k).drop 32).take 32)) true = true
  recover_sign : ∀ h k, K.ecdsaRecover h (sign h k) = some (K.fromECDSAPub (publicKey k))
  tag_pub : ∀ k, (K.fromECDSAPub (publicKey k)).head? = some 4
  DilithiumPrivateKey : Type
  dilithiumPublic : DilithiumPrivateKey → K.DilithiumKey
  dilithiumSign : DilithiumPrivateKey → Bytes → Bytes
  verify_sign : ∀ k msg, K.verify (dilithiumPublic k) msg (dilithiumSign k msg) = true
  unmarshal_pack : ∀ k, K.unmarshalPublicKey (K.pack (dilithiumPublic k)) = some (dilithiumPublic k)

inductive Keys.Key {K : Crypto} (P : Keys K) where
  | ecdsa (k : P.PrivateKey)
  | dilithium (k : P.DilithiumPrivateKey)

variable {K : Crypto} {P : Keys K} {tx tx' : TxData} {s : Signer} {c : Nat}

def Keys.Key.address : P.Key → Address
  | .ecdsa k => K.pubkeyToAddress (P.publicKey k)
  | .dilithium k => K.dilithiumPubkeyToAddress (P.dilithiumPublic k)

/-- Dilithium transactions are signed with Dilithium keys and the others with ECDSA keys. -/
def Keys.Key.Fits (key : P.Key) (tx : TxData) : Prop :=
  match key with
  | .ecdsa _ => tx.txType ≠ dilithiumTxType
  | .dilithium _ => tx.txType = dilithiumTxType

def signDilithiumTx (P : Keys K) (s : Signer) (tx : TxData) (priv : P.DilithiumPrivateKey) :
    Except SenderError TxData :=
  match tx with
  | .dilithium dtx =>
    .ok (.dilithium { dtx with
      pubKey := K.pack (P.dilithiumPublic priv)
      signature := P.dilithiumSign priv (Hash.bytes (s.hash K tx)) })
  | _ => .error .txTypeNotSupported

/-- `SignTx`, and `SignDilithiumTx` with a Dilithium key. -/
def Signer.sign (s : Signer) (tx : TxData) : P.Key → Except SenderError TxData
  | .ecdsa prv => s.withSignature tx (P.sign (s.hash K tx) prv)
  | .dilithium priv => signDilithiumTx P s tx priv

theorem Keys.sign_parts (P : Keys K) (h : Hash) (k : P.PrivateKey) :
    ofNatWidth 32 (toNat ((P.sign h k).take 32)) ++
      ofNatWidth 32 (toNat (((P.sign h k).drop 32).take 32)) ++
      [(P.sign h k).getD 64 0] = P.sign h k := by
  have hlen := P.length_sign h k
  generalize P.sign h k = sig at hlen
  have hr : (sig.take 32).length = 32 := by rw [length_take]; omega
  have hs : ((sig.drop 32).take 32).length = 32 := by rw [length_take, length_drop]; omega
  have hv : [sig.getD 64 0] = sig.drop 64 := by
    rw [drop_eq_getElem_cons (by omega), drop_of_length_le (by omega), getD,
      getElem?_eq_getElem (by omega), Option.getD_some]
  have hr' := ofNatWidth_toNat (sig.take 32)
  have hs' := ofNatWidth_toNat ((sig.drop 32).take 32)
  rw [hr] at hr'
  rw [hs] at hs'
  rw [hr', hs', hv, append_assoc, show sig.drop 64 = (sig.drop 32).drop 32 by rw [drop_drop],
    take_append_drop, take_append_drop]

theorem Keys.decodeSignature_sign (P : Keys K) (h : Hash) (k : P.PrivateKey) :
    decodeSignature (P.sign h k) = .ok
      { r := toNat ((P.sign h k).take 32), s := toNat (((P.sign h k).drop 32).take 32),
        v := ((P.sign h k).getD 64 0 + 27).toNat } :=
  require_bind_eq_ok.mpr ⟨P.length_sign h k, rfl⟩

/-- **Recovery finds the key** that made the signature. -/
theorem recoverPlain_sign (P : Keys K) (h : Hash) (k : P.PrivateKey) :
    recoverPlain K h (toNat ((P.sign h k).take 32)) (toNat (((P.sign h k).drop 32).take 32))
      ((((P.sign h k).getD 64 0).toNat : Int) + 27) true =
        .ok (K.pubkeyToAddress (P.publicKey k)) := by
  have hvalid := P.valid_sign h k
  have hparts := P.sign_parts h k
  have hrecover := P.recover_sign h k
  have hlen := P.length_sign h k
  generalize hsig : P.sign h k = sig at *
  -- the recovery id is 0 or 1
  have hv : sig.getD 64 0 = 0 ∨ sig.getD 64 0 = 1 := by
    unfold validateSignatureValues at hvalid
    split at hvalid
    · cases hvalid
    · split at hvalid
      · cases hvalid
      · simp only [Bool.and_eq_true, Bool.or_eq_true, decide_eq_true_eq] at hvalid
        exact hvalid.2
  have hback : UInt8.ofNat (((sig.getD 64 0).toNat : Int) + 27).natAbs - 27 = sig.getD 64 0 := by
    rcases hv with hv | hv <;> rw [hv] <;> decide
  have hsmall : (((sig.getD 64 0).toNat : Int) + 27).natAbs < 256 := by
    rcases hv with hv | hv <;> rw [hv] <;> decide
  have hpub : K.recoverPubkey h sig = some (K.fromECDSAPub (P.publicKey k)) := by
    unfold Crypto.recoverPubkey
    rw [if_neg (not_not.mpr hlen), if_neg (by rcases hv with hv | hv <;> rw [hv] <;> decide),
      hrecover]
  unfold recoverPlain
  simp only [require_bind_eq_ok, getOr_bind_eq_ok]
  rw [hback, hparts]
  exact ⟨hsmall, hvalid, _, hpub, P.tag_pub _, rfl⟩

/-! ## 5. Asking for the sender of what was signed -/

/-- For the types whose recovery id is 0 or 1, a signer that knows the type finds the key again, if
it signs the transaction at all. -/
theorem sign_sender_typed (k : P.PrivateKey)
    (hvalues : ∀ sig, s.signatureValues tx sig =
      signatureValuesTyped c tx sig := by exact fun _ => rfl)
    (hchain : s.chainID = some c := by rfl) (hsender : ∀ g, s.sender K (tx.setSignatureValues c g) =
      senderTyped K c (s.hash K tx) (tx.setSignatureValues c g) := by exact fun _ => rfl)
    (hraw : ∀ g, (tx.setSignatureValues c g).rawSignatureValues = g := by exact fun _ => rfl)
    (hid : ∀ g, (tx.setSignatureValues c g).fields.chainID = c := by exact fun _ => rfl) :
    (s.sign tx (.ecdsa k : P.Key) >>= s.sender K) = .ok (Keys.Key.ecdsa k : P.Key).address ↔
      tx.fields.chainID = 0 ∨ tx.fields.chainID = c := by
  rw [bind_eq_ok]
  constructor
  · rintro ⟨signed, hsigned, -⟩
    obtain ⟨g, hg, -⟩ := bind_eq_ok.mp hsigned
    rw [hvalues] at hg
    exact (require_bind_eq_ok.mp hg).1
  · intro hfits
    refine ⟨tx.setSignatureValues c
      { r := toNat ((P.sign (s.hash K tx) k).take 32)
        s := toNat (((P.sign (s.hash K tx) k).drop 32).take 32)
        v := ((P.sign (s.hash K tx) k).getD 64 0).toNat }, ?_, ?_⟩
    · refine bind_eq_ok.mpr ⟨_, ?_, by rw [hchain]; rfl⟩
      rw [hvalues]
      exact require_bind_eq_ok.mpr ⟨hfits, bind_eq_ok.mpr ⟨_, P.decodeSignature_sign _ k, rfl⟩⟩
    · rw [hsender]
      refine require_bind_eq_ok.mpr ⟨hid _, ?_⟩
      rw [hraw]
      exact recoverPlain_sign P _ k

theorem sign_sender_dilithium {tx : DilithiumTx} (k : P.DilithiumPrivateKey) :
    (Signer.sign (.dilithium c) (.dilithium tx) (.dilithium k : P.Key) >>=
      Signer.sender K (.dilithium c)) =
      .ok (Keys.Key.dilithium k : P.Key).address ↔ tx.chainID = c := by
  rw [bind_eq_ok]
  constructor
  · rintro ⟨signed, hsigned, hsender⟩
    cases hsigned
    exact (require_bind_eq_ok.mp hsender).1
  · intro hfits
    refine ⟨_, rfl, require_bind_eq_ok.mpr ⟨hfits, ?_⟩⟩
    exact getOr_bind_eq_ok.mpr ⟨_, P.unmarshal_pack _,
      require_bind_eq_ok.mpr ⟨P.verify_sign _ _, rfl⟩⟩

/-- No signer signs an agent transaction. -/
theorem sign_agent {tx : AgentTx} (k : P.PrivateKey) :
    s.sign (.agent tx) (.ecdsa k : P.Key) = .error .txTypeNotSupported := by
  cases s <;> rfl

/-- Before the Dilithium fork no signer signs a superlight transaction. -/
theorem sign_superlight {tx : SuperlightTx} (k : P.PrivateKey) (hs : ∀ c, s ≠ .dilithium c) :
    s.sign (.superlight tx) (.ecdsa k : P.Key) = .error .txTypeNotSupported := by
  cases s with
  | dilithium c => exact absurd rfl (hs c)
  | _ => rfl

/-! ## 6. What the digest determines -/

/-- A transaction without its signature. -/
def TxData.unsigned : TxData → TxData
  | legacy tx => legacy { tx with toSignatureValues := {} }
  | accessList tx => accessList { tx with toSignatureValues := {} }
  | dynamicFee tx => dynamicFee { tx with toSignatureValues := {} }
  | dilithium tx => dilithium { tx with pubKey := [], signature := [] }
  | superlight tx => superlight { tx with toSignatureValues := {} }
  | agent tx => agent { tx with toSignatureValues := {} }

/-- The fields that are read, apart from the chain id. -/
def FeeFields.sansChainID (f : FeeFields) : FeeFields := { f with chainID := 0 }

theorem FeeFields.eq_iff {f f' : FeeFields} :
    f = f' ↔ f.sansChainID = f'.sansChainID ∧ f.chainID = f'.chainID := by
  constructor
  · rintro rfl
    exact ⟨rfl, rfl⟩
  · rintro ⟨hrest, hid⟩
    cases f
    cases f'
    cases hid
    cases hrest
    rfl

theorem feeSigItems_eq_iff :
    feeSigItems c tx = feeSigItems c tx' ↔ tx.fields.sansChainID = tx'.fields.sansChainID := by
  constructor
  · intro h
    obtain ⟨hitems, hal⟩ := append_inj h rfl
    have hsame := FeeFields.items_inj hitems (accessListItem_inj (cons.inj hal).1)
    have hrest := congrArg FeeFields.sansChainID hsame
    exact hrest
  · intro h
    have hfields : ({ tx.fields with chainID := c } : FeeFields) =
        { tx'.fields with chainID := c } :=
      congrArg (fun f : FeeFields => { f with chainID := c }) h
    have hal := congrArg FeeFields.accessList h
    unfold feeSigItems
    rw [hfields, show tx.fields.accessList = tx'.fields.accessList from hal]

/-- An access list transaction has no tip of its own. -/
theorem accessSigItems_eq_iff {t t' : AccessListTx} :
    (.nat c :: legacySigItems (.accessList t) ++ [accessListItem t.accessList] : List Rlp.Item) =
      .nat c :: legacySigItems (.accessList t') ++ [accessListItem t'.accessList] ↔
    (TxData.accessList t).fields.sansChainID = (TxData.accessList t').fields.sansChainID := by
  constructor
  · intro h
    simp only [legacySigItems, TxData.fields, cons_append, nil_append, cons.injEq,
      nat_inj, str.injEq, UInt64.toNat_inj, true_and, and_true] at h
    obtain ⟨hnonce, hprice, hgas, hto, hvalue, hdata, hal⟩ := h
    exact FeeFields.ext rfl hnonce hprice hprice hgas (addressItem_inj hto) hvalue hdata
      (accessListItem_inj hal)
  · intro h
    have hal := congrArg FeeFields.accessList h
    have hitems := congrArg (fun f : FeeFields => ([.nat f.nonce.toNat, .nat f.gasFeeCap,
      .nat f.gas.toNat, addressItem f.toAddr, .nat f.value, .str f.data] : List Rlp.Item)) h
    rw [show t.accessList = t'.accessList from hal,
      show legacySigItems (.accessList t) = legacySigItems (.accessList t') from hitems]

/-- The signer signs the type and the items. -/
theorem Signer.hash_eq_iff {ty : UInt8} {is is' : List Rlp.Item}
    (hb : s.sigBytes tx = some (ty :: (list is).encode))
    (hb' : s.sigBytes tx' = some (ty :: (list is').encode))
    (hlen : ∀ b, s.sigBytes tx = some b → b.length < 2 ^ 64)
    (hcollision : ∀ b b', s.sigBytes tx = some b → s.sigBytes tx' = some b' →
      K.keccak256 b = K.keccak256 b' → b = b') : s.hash K tx = s.hash K tx' ↔ is = is' := by
  constructor
  · intro h
    unfold hash at h
    rw [hb, hb'] at h
    have hbytes := (cons.inj (hcollision _ _ hb hb' h)).2
    have hshort := hlen _ hb
    rw [length_cons] at hshort
    exact list.inj (encode_inj (by omega) hbytes)
  · rintro rfl
    unfold hash
    rw [hb, hb']

/-- The unsigned transaction of a type. -/
def TxData.ofFields (txType : UInt8) (f : FeeFields) : TxData :=
  if txType = accessListTxType then
    .accessList ⟨{}, f.chainID, f.nonce, f.gasFeeCap, f.gas, f.toAddr, f.value, f.data,
      f.accessList⟩
  else if txType = dynamicFeeTxType then .dynamicFee ⟨f, {}⟩
  else if txType = dilithiumTxType then .dilithium ⟨f, [], []⟩
  else .superlight ⟨f, {}⟩

theorem TxData.unsigned_eq_ofFields (htyped : tx.txType ≠ legacyTxType)
    (hagent : tx.txType ≠ agentTxType) :
    tx.unsigned = ofFields tx.txType tx.fields := by
  cases tx with
  | legacy tx => exact absurd rfl htyped
  | agent tx => exact absurd rfl hagent
  | _ => rfl

/-- Besides the signature, a typed transaction consists of the fields that are read; only an agent
transaction has more. -/
theorem TxData.unsigned_eq_iff (htyped : tx.txType ≠ legacyTxType)
    (hagent : tx.txType ≠ agentTxType) (htype : tx'.txType = tx.txType) :
    tx.unsigned = tx'.unsigned ↔ tx.fields = tx'.fields := by
  constructor
  · intro h
    have hfields : ∀ t : TxData, t.txType ≠ legacyTxType → t.unsigned.fields = t.fields := by
      intro t ht
      cases t with
      | legacy t => exact absurd rfl ht
      | _ => rfl
    rw [← hfields tx htyped, ← hfields tx' (htype ▸ htyped), h]
  · intro h
    rw [unsigned_eq_ofFields htyped hagent,
      unsigned_eq_ofFields (htype ▸ htyped) (htype ▸ hagent), htype, h]

/-- Where the key is found again if the chain id fits, and the digest stands for all fields but the
chain id, what remains to be asked is that the chain ids agree. -/
theorem determines_iff {A F H : Prop} (htyped : tx.txType ≠ legacyTxType)
    (htype : tx'.txType = tx.txType) (hsign : A ↔ F)
    (hhash : H ↔ tx.fields.sansChainID = tx'.fields.sansChainID)
    (hagent : tx.txType ≠ agentTxType := by exact nofun) :
    A ∧ (H → tx.unsigned = tx'.unsigned) ↔
      True ∧ F ∧
        (tx.fields.sansChainID = tx'.fields.sansChainID →
          tx.fields.chainID = tx'.fields.chainID) := by
  rw [hsign, hhash, TxData.unsigned_eq_iff htyped hagent htype,
    FeeFields.eq_iff (f := tx.fields), true_and]
  refine and_congr_right fun _ => ⟨fun h hrest => (h hrest).2, fun h hrest => ⟨hrest, h hrest⟩⟩

/-! ## 7. Signing under the forks -/

/-- The fork of the transaction's type is active. -/
def SignerConfig.isActive (config : SignerConfig) (blockNumber : Nat) : TxData → Bool
  | .legacy _ => true
  | .accessList _ => isForked config.berlinBlock blockNumber
  | .dynamicFee _ => isForked config.londonBlock blockNumber
  | .dilithium _ => isForked config.dilithiumBlock blockNumber
  | .superlight _ => isForked config.superlightBlock blockNumber
  | .agent _ => isForked config.agentConsensusBlock blockNumber

/-- Where its fork is active, `MakeSigner`'s signer knows the type. -/
def SignerConfig.Knows (config : SignerConfig) (blockNumber : Nat) : TxData → Prop
  | .superlight _ => isForked config.dilithiumBlock blockNumber = true
  | .agent _ => False
  | _ => True

/-- The transaction names the chain, or none where signing fills it in. -/
def TxData.ChainIdFits (chainId : Nat) : TxData → Prop
  | .dilithium tx => tx.chainID = chainId
  | tx => tx.fields.chainID = 0 ∨ tx.fields.chainID = chainId

variable {config : SignerConfig} {blockNumber : Nat}

theorem makeSigner_dilithium (h : isForked config.dilithiumBlock blockNumber = true) :
    makeSigner config blockNumber = .dilithium (config.chainID.getD 0) := by
  unfold makeSigner
  rw [if_pos h]

theorem makeSigner_ne_dilithium (h : isForked config.dilithiumBlock blockNumber = false) (c : Nat) :
    makeSigner config blockNumber ≠ .dilithium c := by
  unfold makeSigner
  rw [if_neg (by simp [h])]
  intro heq
  repeat' split at heq
  all_goals cases heq

theorem makeSigner_london (h : isForked config.londonBlock blockNumber = true) :
    makeSigner config blockNumber = .london (config.chainID.getD 0) ∨
      makeSigner config blockNumber = .dilithium (config.chainID.getD 0) := by
  unfold makeSigner
  dsimp only
  split
  · exact Or.inr rfl
  · exact Or.inl rfl

theorem makeSigner_berlin (h : isForked config.berlinBlock blockNumber = true) :
    makeSigner config blockNumber = .eip2930 (config.chainID.getD 0) ∨
      makeSigner config blockNumber = .london (config.chainID.getD 0) ∨
      makeSigner config blockNumber = .dilithium (config.chainID.getD 0) := by
  unfold makeSigner
  dsimp only
  rw [if_pos h]
  split
  · exact Or.inr (Or.inr rfl)
  · split
    · exact Or.inr (Or.inl rfl)
    · exact Or.inl rfl

/-- **Signing, and asking for the sender.**  For a typed transaction whose fork is active, the key
that signed it is found again, and the digest determines the unsigned transaction, exactly when the
type is not that of the agents, superlight only once Dilithium is active, the transaction names no
other chain (a Dilithium transaction names the chain), and the two transactions do not differ in the
chain id alone. -/
theorem sign_sender_iff (P : Keys K) (config : SignerConfig) (blockNumber : Nat) (tx tx' : TxData)
    (key : P.Key) (htyped : tx.txType ≠ legacyTxType)
    (hfork : config.isActive blockNumber tx = true) (hkey : key.Fits tx)
    (htype : tx'.txType = tx.txType)
    (hlen : ∀ b, (makeSigner config blockNumber).sigBytes tx = some b → b.length < 2 ^ 64)
    (hcollision : ∀ b b', (makeSigner config blockNumber).sigBytes tx = some b →
      (makeSigner config blockNumber).sigBytes tx' = some b' →
      K.keccak256 b = K.keccak256 b' → b = b') :
    ((makeSigner config blockNumber).sign tx key >>= (makeSigner config blockNumber).sender K) =
        .ok key.address ∧
      ((makeSigner config blockNumber).hash K tx = (makeSigner config blockNumber).hash K tx' →
        tx.unsigned = tx'.unsigned) ↔
    config.Knows blockNumber tx ∧ tx.ChainIdFits (config.chainID.getD 0) ∧
      (tx.fields.sansChainID = tx'.fields.sansChainID →
        tx.fields.chainID = tx'.fields.chainID) := by
  generalize hs : makeSigner config blockNumber = s at *
  cases tx with
  | legacy tx => exact absurd rfl htyped
  | accessList tx =>
    cases key with
    | dilithium k => cases hkey
    | ecdsa k =>
      cases tx' with
      | accessList tx' =>
        have hknown := @makeSigner_berlin config blockNumber hfork
        rw [hs] at hknown
        refine determines_iff htyped htype ?_
          (Iff.trans ?_ (accessSigItems_eq_iff (c := config.chainID.getD 0)))
        · rcases hknown with rfl | rfl | rfl <;> exact sign_sender_typed k
        · rcases hknown with rfl | rfl | rfl <;> exact Signer.hash_eq_iff rfl rfl hlen hcollision
      | _ => cases htype
  | dynamicFee tx =>
    cases key with
    | dilithium k => cases hkey
    | ecdsa k =>
      cases tx' with
      | dynamicFee tx' =>
        have hknown := @makeSigner_london config blockNumber hfork
        rw [hs] at hknown
        refine determines_iff htyped htype ?_
          (Iff.trans ?_ (feeSigItems_eq_iff (c := config.chainID.getD 0)))
        · rcases hknown with rfl | rfl <;> exact sign_sender_typed k
        · rcases hknown with rfl | rfl <;> exact Signer.hash_eq_iff rfl rfl hlen hcollision
      | _ => cases htype
  | dilithium tx =>
    cases key with
    | ecdsa k => exact absurd rfl hkey
    | dilithium k =>
      cases tx' with
      | dilithium tx' =>
        rw [makeSigner_dilithium hfork] at hs
        subst hs
        exact determines_iff htyped htype
          (sign_sender_dilithium k)
          ((Signer.hash_eq_iff rfl rfl hlen hcollision).trans feeSigItems_eq_iff)
      | _ => cases htype
  | superlight tx =>
    cases key with
    | dilithium k => cases hkey
    | ecdsa k =>
      cases tx' with
      | superlight tx' =>
        cases hdilithium : isForked config.dilithiumBlock blockNumber with
        | false =>
          -- the signer of an earlier fork refuses to sign
          have hrefused := @sign_superlight K P s tx k (hs ▸ makeSigner_ne_dilithium hdilithium)
          refine iff_of_false ?_ (fun h => Bool.false_ne_true (hdilithium.symm.trans h.1))
          rintro ⟨hok, -⟩
          rw [hrefused] at hok
          cases hok
        | true =>
          rw [makeSigner_dilithium hdilithium] at hs
          subst hs
          refine (determines_iff htyped htype ?_
            (Iff.trans ?_ (feeSigItems_eq_iff (c := config.chainID.getD 0)))).trans
              (and_congr_left fun _ => iff_of_true trivial hdilithium)
          · exact sign_sender_typed k
          · exact Signer.hash_eq_iff rfl rfl hlen hcollision
      | _ => cases htype
  | agent tx =>
    cases key with
    | dilithium k => cases hkey
    | ecdsa k =>
      refine iff_of_false ?_ (fun h => h.1)
      rintro ⟨hok, -⟩
      rw [sign_agent] at hok
      cases hok

/-- A signature that spells out its key. -/
def plainSignature : Bytes := 4 :: replicate 62 0 ++ [1, 0]

/-- One key, which signs everything alike. -/
def plainKeys : Keys plainCrypto where
  PrivateKey := Unit
  publicKey := fun _ => plainSignature
  sign := fun _ _ => plainSignature
  length_sign := fun _ _ => rfl
  valid_sign := fun _ _ => by decide
  recover_sign := fun _ _ => rfl
  tag_pub := fun _ => rfl
  DilithiumPrivateKey := Empty
  dilithiumPublic := nofun
  dilithiumSign := nofun
  verify_sign := nofun
  unmarshal_pack := nofun

/-- Chain 7, with every fork active from the start. -/
def allForks : SignerConfig :=
  ⟨some 7, some 0, some 0, some 0, some 0, some 0, some 0, some 0⟩

/-- A payment to address 9. -/
def paymentFields (nonce : UInt64) : FeeFields := ⟨7, nonce, 1, 1, 21000, some 9, 5, [], []⟩

theorem sign_sender_of_payment :
    ((makeSigner allForks 1).sign (.superlight ⟨paymentFields 0, {}⟩)
      (.ecdsa () : plainKeys.Key) >>=
      (makeSigner allForks 1).sender plainCrypto) =
        .ok (Keys.Key.ecdsa () : plainKeys.Key).address := by
  refine ((sign_sender_iff plainKeys allForks 1 (.superlight ⟨paymentFields 0, {}⟩)
    (.superlight ⟨paymentFields 0, {}⟩) (.ecdsa ()) (by decide) (by decide)
    (show superlightTxType ≠ dilithiumTxType by decide) rfl ?_ ?_).mpr ⟨?_, ?_, ?_⟩).1
  · intro b hb
    cases hb
    decide
  · intro b b' hb hb' _
    exact Option.some.inj (hb.symm.trans hb')
  · exact (show isForked (some 0) 1 = true by decide)
  · exact Or.inr rfl
  · intro _
    rfl

/-- Two agent transactions that differ have the same digest, and neither can be signed. -/
theorem agent_transaction_not_signed :
    allForks.isActive 1 (.agent ⟨paymentFields 0, {}, 1, 0⟩) = true ∧
    (Keys.Key.ecdsa () : plainKeys.Key).Fits (.agent ⟨paymentFields 0, {}, 1, 0⟩) ∧
    (makeSigner allForks 1).sign (.agent ⟨paymentFields 0, {}, 1, 0⟩) (.ecdsa () : plainKeys.Key) =
      .error .txTypeNotSupported ∧
    (makeSigner allForks 1).hash plainCrypto (.agent ⟨paymentFields 0, {}, 1, 0⟩) =
      (makeSigner allForks 1).hash plainCrypto (.agent ⟨paymentFields 1, {}, 2, 3⟩) ∧
    (TxData.agent ⟨paymentFields 0, {}, 1, 0⟩).unsigned ≠
      (TxData.agent ⟨paymentFields 1, {}, 2, 3⟩).unsigned :=
  ⟨by decide, (show agentTxType ≠ dilithiumTxType by decide), rfl, rfl, by decide⟩

end ProbeChain
