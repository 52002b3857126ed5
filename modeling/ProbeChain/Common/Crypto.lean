/-
# Keys, signatures and addresses

`crypto/crypto.go`, `crypto/secp256k1/secp256.go` and `crypto/dilithium/dilithium.go` over the code
they call: the digest, the curve and the lattice scheme come from outside the repository and are
the fields of `Crypto`.  What the repository adds around them, the checks of lengths and of the
recovery id and how an address is cut out of a digest, is written out.

Nothing is assumed of a `Crypto`.  `Signatures` says what it means that a signature was made by a
key, and that recovery and verification get it right.
-/
import ProbeChain.Common.Types

namespace ProbeChain

/-! ## 1. What is called -/

structure Crypto where
  keccak256 : Bytes → Hash
  EcdsaKey : Type
  /-- `secp256k1_ext_ecdsa_recover` -/
  ecdsaRecover : Hash → Bytes → Option Bytes
  /-- `UnmarshalPubkey` -/
  unmarshalPubkey : Bytes → Option EcdsaKey
  /-- `FromECDSAPub`, whose first byte is a tag -/
  fromECDSAPub : EcdsaKey → Bytes
  DilithiumKey : Type
  unpack : Bytes → DilithiumKey
  pack : DilithiumKey → Bytes
  dilithiumVerify : DilithiumKey → Bytes → Bytes → Bool

namespace Crypto

variable (K : Crypto)

/-! ## 2. ECDSA -/

/-- A signature has 65 bytes, the last of which is the recovery id. -/
def recoverPubkey (msg : Hash) (sig : Bytes) : Option Bytes :=
  if sig.length ≠ 65 then none
  else if 4 ≤ sig.getD 64 0 then none
  else K.ecdsaRecover msg sig

def pubkeyToAddress (k : K.EcdsaKey) : Address :=
  (K.keccak256 ((K.fromECDSAPub k).drop 1)).setWidth 160

/-! ## 3. Dilithium -/

def dilithiumPublicKeySize : Nat := 1312
def dilithiumSignatureSize : Nat := 2420

def unmarshalPublicKey (data : Bytes) : Option K.DilithiumKey :=
  if data.length = dilithiumPublicKeySize then some (K.unpack data) else none

def verify (pub : K.DilithiumKey) (msg sig : Bytes) : Bool :=
  sig.length = dilithiumSignatureSize && K.dilithiumVerify pub msg sig

def dilithiumPubkeyToAddress (pub : K.DilithiumKey) : Address :=
  (K.keccak256 (K.pack pub)).setWidth 160

end Crypto

/-- **Genuine signatures.**  `ecdsa msg sig k` says that `k` made `sig` over `msg`, and `dilithium`
the same for the other scheme.  Recovery and verification are right when they report success, and
a key that made a recoverable signature is recovered from it. -/
structure Signatures (K : Crypto) where
  ecdsa : Hash → Bytes → K.EcdsaKey → Prop
  dilithium : Hash → Bytes → K.DilithiumKey → Prop
  ecdsa_sound : ∀ {msg sig pub k}, K.recoverPubkey msg sig = some pub →
    K.unmarshalPubkey pub = some k → ecdsa msg sig k
  ecdsa_complete : ∀ {msg sig k}, ecdsa msg sig k →
    ∃ pub, K.recoverPubkey msg sig = some pub ∧ K.unmarshalPubkey pub = some k
  dilithium_sound : ∀ {msg sig pub}, K.verify pub (Hash.bytes msg) sig = true →
    dilithium msg sig pub

/-- The signatures that recovery and verification take for genuine. -/
def Signatures.reported (K : Crypto) : Signatures K where
  ecdsa := fun msg sig k => (K.recoverPubkey msg sig).bind K.unmarshalPubkey = some k
  dilithium := fun msg sig pub => K.verify pub (Hash.bytes msg) sig = true
  ecdsa_sound := fun hrecover hkey => by rw [hrecover, Option.bind_some, hkey]
  ecdsa_complete := Option.bind_eq_some_iff.mp
  dilithium_sound := id

/-- Signatures that spell out the key, and a digest that keeps the last 32 bytes. -/
def plainCrypto : Crypto where
  keccak256 := bytesToHash
  EcdsaKey := Bytes
  ecdsaRecover := fun _ sig => some sig
  unmarshalPubkey := some
  fromECDSAPub := id
  DilithiumKey := Bytes
  unpack := id
  pack := id
  dilithiumVerify := fun _ _ _ => false

end ProbeChain
