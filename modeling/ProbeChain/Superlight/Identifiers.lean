/-
# What the identifiers bind

The fingerprint of a device, the ID of an order and that of a trade are hashes of fields that are
written one after the other.  A field of fixed width is bound by the hash.  One of any length is
not: its last byte may as well be the first of the next field.  `identifiers_bind_iff` says what has
to agree besides the hashes.
-/
import ProbeChain.Superlight.Engine
import ProbeChain.Consensus.Identity

namespace ProbeChain

open BigEndian List Superlight

/-- The two messages are no collision. -/
def Separates (hash : Bytes → Hash) (m m' : Bytes) : Prop := hash m = hash m' → m = m'

/-- What is hashed for the ID. -/
def Superlight.Order.hashed (o : Order) : Bytes :=
  orderIDData o.owner o.pair o.side o.price o.amount o.blockNum

/-- Addresses have a fixed width, so owner, pair and side can be read off. -/
theorem Superlight.Order.fields_of_hashed {o o' : Order} (h : o.hashed = o'.hashed) :
    (o.owner = o'.owner ∧ o.pair = o'.pair ∧ o.side = o'.side) ∧
      ofNat o.price.natAbs ++ (ofNat o.amount.natAbs ++ ofNat o.blockNum.toNat) =
        ofNat o'.price.natAbs ++ (ofNat o'.amount.natAbs ++ ofNat o'.blockNum.toNat) := by
  simp only [hashed, orderIDData, append_assoc] at h
  obtain ⟨howner, h⟩ := append_inj h (by simp [Address.length_bytes])
  obtain ⟨hbase, h⟩ := append_inj h (by simp [Address.length_bytes])
  obtain ⟨hquote, h⟩ := append_inj h (by simp [Address.length_bytes])
  obtain ⟨hside, h⟩ := append_inj h rfl
  refine ⟨⟨Address.bytes_inj howner, ?_, singleton_inj.mp hside⟩, h⟩
  exact congrArg₂ TradingPair.mk (Address.bytes_inj hbase) (Address.bytes_inj hquote)

/-- What `generateTradeID` hashes. -/
def Superlight.Trade.hashed (t : Trade) : Bytes :=
  tradeIDData t.makerOrder t.takerOrder t.amount t.blockNum

/-- `Bytes` of a big integer writes neither the sign nor the length. -/
def SameForm (m n : Int) : Prop :=
  m.sign = n.sign ∧ (ofNat m.natAbs).length = (ofNat n.natAbs).length

theorem eq_iff_sameForm {m n : Int} : m = n ↔ ofNat m.natAbs = ofNat n.natAbs ∧ SameForm m n := by
  refine ⟨fun h => h ▸ ⟨rfl, rfl, rfl⟩, fun ⟨h, hsign, _⟩ => ?_⟩
  rw [← Int.sign_mul_natAbs m, ← Int.sign_mul_natAbs n, hsign, ofNat_inj h]

theorem blockNum_eq_iff {m n : UInt64} : m = n ↔ ofNat m.toNat = ofNat n.toNat :=
  ⟨fun h => h ▸ rfl, fun h => UInt64.toNat_inj.mp (ofNat_inj h)⟩

/-- **Equal hashes bind all fields of fixed width, and the others exactly if their lengths agree**,
but for the last of them; of amounts the signs have to agree, too. -/
theorem identifiers_bind_iff (K : Crypto) (P : Platform) :
    (∀ cpu mac disk board cpu' mac' disk' board' : Bytes,
      Separates K.keccak256 (deviceBytes cpu mac disk board) (deviceBytes cpu' mac' disk' board') →
      makeDeviceFingerprint K cpu mac disk board = makeDeviceFingerprint K cpu' mac' disk' board' →
      (cpu = cpu' ∧ mac = mac' ∧ disk = disk' ∧ board = board' ↔
        cpu.length = cpu'.length ∧ mac.length = mac'.length ∧ disk.length = disk'.length)) ∧
    (∀ o o' : Order, Separates P.sha256 o.hashed o'.hashed →
      generateOrderID P o.owner o.pair o.side o.price o.amount o.blockNum =
        generateOrderID P o'.owner o'.pair o'.side o'.price o'.amount o'.blockNum →
      (o.owner = o'.owner ∧ o.pair = o'.pair ∧ o.side = o'.side) ∧
        (o.price = o'.price ∧ o.amount = o'.amount ∧ o.blockNum = o'.blockNum ↔
          SameForm o.price o'.price ∧ SameForm o.amount o'.amount)) ∧
    (∀ t t' : Trade, Separates P.sha256 t.hashed t'.hashed →
      generateTradeID P t.makerOrder t.takerOrder t.amount t.blockNum =
        generateTradeID P t'.makerOrder t'.takerOrder t'.amount t'.blockNum →
      (t.makerOrder = t'.makerOrder ∧ t.takerOrder = t'.takerOrder) ∧
        (t.amount = t'.amount ∧ t.blockNum = t'.blockNum ↔ SameForm t.amount t'.amount)) := by
  refine ⟨fun cpu mac disk board cpu' mac' disk' board' hfree h => ?_, fun o o' hfree h => ?_,
    fun t t' hfree h => ?_⟩
  · have h := hfree h
    simp only [deviceBytes, append_assoc, append_cancel_left_eq] at h
    constructor
    · rintro ⟨rfl, rfl, rfl, rfl⟩
      exact ⟨rfl, rfl, rfl⟩
    · rintro ⟨hcpu, hmac, hdisk⟩
      obtain ⟨hcpu, h⟩ := append_inj h hcpu
      obtain ⟨hmac, h⟩ := append_inj h hmac
      exact ⟨hcpu, hmac, append_inj h hdisk⟩
  · obtain ⟨hfixed, h⟩ := Order.fields_of_hashed (hfree h)
    refine ⟨hfixed, fun ⟨hprice, hamount, _⟩ =>
      ⟨(eq_iff_sameForm.mp hprice).2, (eq_iff_sameForm.mp hamount).2⟩, ?_⟩
    rintro ⟨hprice, hamount⟩
    obtain ⟨hp, h⟩ := append_inj h hprice.2
    obtain ⟨ha, hb⟩ := append_inj h hamount.2
    exact ⟨eq_iff_sameForm.mpr ⟨hp, hprice⟩, eq_iff_sameForm.mpr ⟨ha, hamount⟩,
      blockNum_eq_iff.mpr hb⟩
  · have h := hfree h
    simp only [Trade.hashed, tradeIDData, append_assoc] at h
    obtain ⟨hmaker, h⟩ := append_inj h (by simp [Hash.length_bytes])
    obtain ⟨htaker, h⟩ := append_inj h (by simp [Hash.length_bytes])
    refine ⟨⟨Hash.bytes_inj hmaker, Hash.bytes_inj htaker⟩,
      fun hsame => (eq_iff_sameForm.mp hsame.1).2, fun hamount => ?_⟩
    obtain ⟨ha, hb⟩ := append_inj h hamount.2
    exact ⟨eq_iff_sameForm.mpr ⟨ha, hamount⟩, blockNum_eq_iff.mpr hb⟩

/-- A bid of account `7`. -/
def bidOf (price amount : Int) : Order :=
  { id := 0, owner := 7, pair := ⟨1, 2⟩, side := orderSideBuy, price := price, amount := amount,
    timestamp := 0, blockNum := 4 }

def tradeOf (amount : Int) (blockNum : UInt64) : Trade :=
  { id := 0, makerOrder := 1, takerOrder := 2, maker := 7, taker := 8, pair := ⟨1, 2⟩, price := 5,
    amount := amount, timestamp := 0, blockNum := blockNum }

/-- Inputs that are hashed alike are told apart by the lengths of their fields. -/
theorem identifiers_bind_shifted :
    ¬ (([1] : Bytes).length = ([] : Bytes).length ∧ ([] : Bytes).length = ([1] : Bytes).length ∧
      ([2] : Bytes).length = ([2] : Bytes).length) ∧
    ¬ (SameForm 258 1 ∧ SameForm 3 515) ∧ ¬ SameForm 1 258 := by
  obtain ⟨hdevice, horder, htrade⟩ := identifiers_bind_iff plainCrypto plainPlatform
  have hdevice := hdevice [1] [] [2] [3] [] [1] [2] [3] (fun _ => rfl) rfl
  have horder := horder (bidOf 258 3) (bidOf 1 515) (fun _ => by decide)
    (congrArg plainPlatform.sha256 (by decide))
  have htrade := htrade (tradeOf 1 2) (tradeOf 258 0) (fun _ => by decide)
    (congrArg plainPlatform.sha256 (by decide))
  exact ⟨hdevice.not.mp (by decide), horder.2.not.mp (by decide), htrade.2.not.mp (by decide)⟩

/-- **A byte changes its field**: of the processor and the network card, of price and amount, of
amount and block. -/
theorem identifiers_collide :
    makeDeviceFingerprint plainCrypto [1] [] [2] [3] =
      makeDeviceFingerprint plainCrypto [] [1] [2] [3] ∧
    generateOrderID plainPlatform 7 ⟨1, 2⟩ orderSideBuy 258 3 4 =
      generateOrderID plainPlatform 7 ⟨1, 2⟩ orderSideBuy 1 515 4 ∧
    generateTradeID plainPlatform 1 2 1 2 = generateTradeID plainPlatform 1 2 258 0 :=
  ⟨rfl, congrArg plainPlatform.sha256 (by decide), congrArg plainPlatform.sha256 (by decide)⟩

end ProbeChain
