/-
# Trades and the limits of the orders

`core/superlight/manager.go`.  A transaction to the exchange is a byte string: an operation, and for
a new order the side, the two assets, the price and the amount.  The side is whatever byte stands
there.

Everything that is not a purchase is treated as a sale: it is matched against the bids, and rests
among the asks.  But the price test of `matchOrder` is written for the two named sides only, so a
sale of a third side takes any price.  `limits_kept_iff` says that this is the only way in which an
order can be filled beyond its limit, for every sequence of transactions, and `limit_ignored` is a
sale for `5` at the price `1`.
-/
import ProbeChain.Lib.Check
import ProbeChain.Superlight.Book

namespace ProbeChain.Superlight

open List Superlight.Order

/-! ## 1. The manager -/

structure SuperlightConfig where
  enabled : Bool
  makerFeeBps : UInt64
  takerFeeBps : UInt64
  maxOrdersPerAccount : UInt64

def opPlaceOrder : UInt8 := 0x01
def opCancelOrder : UInt8 := 0x02

/-- `visit` is the order in which Go ranges over the books, in a cancellation. -/
structure DexTransaction where
  sender : Address
  data : Bytes
  timestamp : UInt64
  blockNum : UInt64
  visit : List TradingPair := []

variable (P : Platform) (config : SuperlightConfig) (me : MatchingEngine)

def calculateFees (trade : Trade) : Trade :=
  let quoteValue := trade.amount * trade.price / 1000000000000000000
  { trade with
    makerFee := quoteValue * config.makerFeeBps.toNat / 10000
    takerFee := quoteValue * config.takerFeeBps.toNat / 10000 }

/-- The trades from the given one on are charged; they are the same objects as in the log of the
engine. -/
def chargeFees (first : Nat) : MatchingEngine :=
  { me with
    fills := me.fills.take first ++ (me.fills.drop first).map fun f =>
      { f with trade := calculateFees config f.trade } }

def processPlaceOrder (tx : DexTransaction) (data : Bytes) :
    Except DexError (MatchingEngine × List Trade) :=
  if data.length < 105 then .error .invalidDEXOp
  else do
    let side := data.getD 0 0
    let baseAsset := bytesToAddress ((data.drop 1).take 20)
    let quoteAsset := bytesToAddress ((data.drop 21).take 20)
    let price := BigEndian.toNat ((data.drop 41).take 32)
    let amount := BigEndian.toNat ((data.drop 73).take 32)
    let placed ← me.placeOrder P tx.sender ⟨baseAsset, quoteAsset⟩ side (some price)
        (some amount) tx.timestamp
      tx.blockNum
    let charged := chargeFees config placed me.fills.length
    return (charged, (charged.fills.drop me.fills.length).map Fill.trade)

def processCancelOrder (tx : DexTransaction) (data : Bytes) : Except DexError MatchingEngine :=
  if data.length < 32 then .error .invalidDEXOp
  else me.cancelOrder (bytesToHash (data.take 32)) tx.sender tx.visit

def processDEXTransaction (tx : DexTransaction) : Except DexError (MatchingEngine × List Trade) :=
  if config.enabled = false then .error .dexNotEnabled
  else match tx.data with
    | [] => .error .invalidDEXOp
    | op :: data =>
      if op = opPlaceOrder then processPlaceOrder P config me tx data
      else if op = opCancelOrder then do
        let me ← processCancelOrder me tx data
        return (me, [])
      else .error .invalidDEXOp

def afterTransaction (tx : DexTransaction) : MatchingEngine :=
  match processDEXTransaction P config me tx with
  | .ok (me, _) => me
  | .error _ => me

/-- The engine of a new manager after the transactions. -/
def afterTransactions (txs : List DexTransaction) : MatchingEngine :=
  txs.foldl (afterTransaction P config) {}

/-! ## 2. Limits -/

variable (orders : Heap Order) (f : Fill)

/-- The side of the taker says who buys: whatever is not a purchase is matched against the bids. -/
def Fill.buyer : Order :=
  if (orders.get f.taker).buys then orders.get f.taker else orders.get f.maker

def Fill.seller : Order :=
  if (orders.get f.taker).buys then orders.get f.maker else orders.get f.taker

def Fill.WithinLimits : Prop :=
  f.trade.price ≤ (f.buyer orders).price ∧ (f.seller orders).price ≤ f.trade.price

instance : Decidable (f.WithinLimits orders) := inferInstanceAs (Decidable (_ ∧ _))

/-- A trade of two opposite orders, at the price of the one that was there, which the other did not
refuse. -/
structure Fill.Priced : Prop where
  maker_lt : f.maker < orders.size
  taker_lt : f.taker < orders.size
  opposite : (orders.get f.taker).buys = !(orders.get f.maker).buys
  maker : (orders.get f.maker).price = f.trade.price
  taker : (orders.get f.taker).refuses f.trade.price = false

variable {orders orders' : Heap Order} {f : Fill}

theorem Fill.Priced.congr (h : f.Priced orders) (hsize : orders.size ≤ orders'.size)
    (hterms : ∀ r < orders.size, (orders'.get r).terms = (orders.get r).terms) :
    f.Priced orders' := by
  have hmaker := hterms f.maker h.maker_lt
  have htaker := hterms f.taker h.taker_lt
  refine ⟨h.maker_lt.trans_le hsize, h.taker_lt.trans_le hsize, ?_, ?_, ?_⟩
  · rw [buys_congr hmaker, buys_congr htaker]
    exact h.opposite
  · exact (congrArg (·.2.2.1) hmaker).trans h.maker
  · rw [refuses_congr htaker]
    exact h.taker

/-- **When a trade is within the limits.**  A taker of a side without a name sells, and nobody has
looked at its limit. -/
theorem Fill.Priced.withinLimits_iff (h : f.Priced orders) :
    f.WithinLimits orders ↔ (orders.get f.taker).side = orderSideBuy ∨
    (orders.get f.taker).side = orderSideSell ∨
      (orders.get f.taker).price ≤ f.trade.price := by
  have htaker := h.taker
  rw [refuses, decide_eq_false_iff_not, not_or, not_and, not_and] at htaker
  by_cases hbuy : (orders.get f.taker).side = orderSideBuy
  · have hbuys : (orders.get f.taker).buys = true := decide_eq_true hbuy
    refine iff_of_true ?_ (.inl hbuy)
    rw [Fill.WithinLimits, Fill.buyer, Fill.seller, if_pos hbuys, if_pos hbuys]
    exact ⟨not_lt.mp (htaker.1 hbuy), h.maker.le⟩
  · have hbuys : ¬ (orders.get f.taker).buys = true := fun hbuys => hbuy (of_decide_eq_true hbuys)
    rw [Fill.WithinLimits, Fill.buyer, Fill.seller, if_neg hbuys, if_neg hbuys]
    constructor
    · exact fun hlimits => .inr (.inr hlimits.2)
    · rintro (hside | hside | hprice)
      · exact absurd hside hbuy
      · exact ⟨h.maker.ge, not_lt.mp (htaker.2 hside)⟩
      · exact ⟨h.maker.ge, hprice⟩

/-! ## 3. Runs -/

variable {P : Platform} {start : Heap Order} {taker : OrderRef} {timestamp blockNum : UInt64}
  {pair : TradingPair}
  {b : Bool} {allowed : Int → Prop}

/-- **Both loops.** -/
theorem priced_matchLevels {levels : List PriceLevel} {m : Matching}
    (htaker : (start.get taker).buys = !b) (hplaced : taker < start.size)
    (hclearing : Clearing start taker pair b allowed levels m)
    (h : ∀ f ∈ m.fills, f.Priced m.orders) :
    let m' := (matchLevels P taker timestamp blockNum levels m).2
    ∀ f ∈ m'.fills, f.Priced m'.orders := by
  refine (matchLevels_inv (P := P)
    (Q := fun levels m => Clearing start taker pair b allowed levels m ∧
    ∀ f ∈ m.fills, f.Priced m.orders) ?_ ?_ ⟨hclearing, h⟩).2
  · rintro price maker orders rest m ⟨hclearing, h⟩ hpos haccepts
    have hmaker := hclearing.side.resting _ mem_cons_self maker mem_cons_self
    have hbuys : (m.orders.get taker).buys = !b := (buys_congr (hclearing.terms taker)).trans htaker
    refine ⟨Clearing.trade htaker hclearing hpos haccepts, fun f hf => ?_⟩
    obtain ⟨t, hfills, hprice, -⟩ := trade_fills P taker timestamp blockNum price maker m
    rw [hfills] at hf
    -- the terms of the orders are the same before and after the trade
    refine Fill.Priced.congr ?_ (Nat.le_refl m.orders.size) fun r _ => terms_trade r
    rcases mem_append.mp hf with hf | hf
    · exact h f hf
    · rw [mem_singleton.mp hf]
      refine ⟨hmaker.placed, hplaced.trans_eq hclearing.size.symm, ?_, ?_, ?_⟩
      · exact hbuys.trans (congrArg _ hmaker.buys.symm)
      · exact hmaker.price.trans hprice.symm
      · rwa [hprice]
  · rintro price rest m ⟨hclearing, h⟩
    exact ⟨hclearing.drop, h⟩

/-- What every transaction keeps. -/
structure LimitsInv (me : MatchingEngine) : Prop where
  books : EngineInv me
  priced : ∀ f ∈ me.fills, f.Priced me.orders

variable {config : SuperlightConfig} {me : MatchingEngine}

/-- **A new order.** -/
theorem LimitsInv.enterOrder {order : Order} (h : LimitsInv me) (hfresh : order.Fresh) :
    LimitsInv (me.enterOrder P order) := by
  obtain ⟨b, hbuys⟩ : ∃ b, order.buys = !b := ⟨!order.buys, (Bool.not_not _).symm⟩
  have hclearing := h.books.clearing (P := P) hbuys hfresh
  obtain ⟨hsize, hstanding⟩ :=
    standing_restOrder P.levelSort me.orders.size (me.matched P order).1
      (me.matched P order).2.orders
  have hterms (r : OrderRef) : ((me.enterOrder P order).orders.get r).terms =
      ((me.matched P order).2.orders.get r).terms := congrArg (·.1) (hstanding r)
  have hmatched : ∀ f ∈ (me.matched P order).2.fills, f.Priced (me.matched P order).2.orders := by
    rw [(matched_levels P me hbuys).2.2]
    refine priced_matchLevels ?_ (Nat.lt_succ_self _) (h.books.clearing_start hfresh) (by simp)
    rwa [Heap.get_alloc_self]
  refine ⟨h.books.enterOrder hfresh, fun f hf => ?_⟩
  rcases mem_append.mp hf with hf | hf
  · refine (h.priced f hf).congr
      ((hsize.trans hclearing.size).ge.trans' (Nat.le_succ _)) fun r hr => ?_
    rw [hterms, hclearing.terms, Heap.get_alloc_of_lt _ _ hr]
  · exact (hmatched f hf).congr hsize.ge fun r _ => hterms r

/-- Fees are no part of it. -/
theorem LimitsInv.chargeFees (h : LimitsInv me) (first : Nat) :
    LimitsInv (chargeFees config me first) := by
  refine ⟨h.books, fun f hf => ?_⟩
  rcases mem_append.mp hf with hf | hf
  · exact h.priced f (mem_of_mem_take hf)
  · obtain ⟨g, hg, rfl⟩ := mem_map.mp hf
    obtain ⟨hmaker, htaker, hopposite, hprice, hrefuses⟩ := h.priced g (mem_of_mem_drop hg)
    exact ⟨hmaker, htaker, hopposite, hprice, hrefuses⟩

theorem LimitsInv.withdrawOrder {id : Hash} {pair : TradingPair} {book : OrderBook} {r : OrderRef}
    (h : LimitsInv me) (hbook : me.books pair = some book) :
    LimitsInv (me.withdrawOrder id pair book r) := by
  refine ⟨h.books.withdrawOrder hbook, fun f hf => (h.priced f hf).congr le_rfl fun r' _ => ?_⟩
  exact Heap.view_modify _ (terms_setStatus _) _ _

/-- What a transaction that is accepted can do. -/
theorem processDEXTransaction_eq_ok {tx : DexTransaction} {me' : MatchingEngine}
    {trades : List Trade} (h : processDEXTransaction P config me tx = .ok (me', trades)) :
    (∃ order : Order, order.Fresh ∧ order.owner = tx.sender ∧ tx.data.head? = some opPlaceOrder ∧
      me' = Superlight.chargeFees config (me.enterOrder P order) me.fills.length) ∨
      ∃ id pair book r, me.books pair = some book ∧ me' = me.withdrawOrder id pair book r := by
  unfold processDEXTransaction at h
  split at h
  · cases h
  split at h
  · cases h
  rename_i op data hdata
  split at h
  next hop =>
    unfold processPlaceOrder at h
    split at h
    · cases h
    obtain ⟨placed, hplaced, hreturn⟩ := Check.bind_eq_ok.mp h
    obtain ⟨order, hfresh, -, howner, -, -, -, rfl⟩ := placeOrder_eq_ok hplaced
    cases hreturn
    exact .inl ⟨order, hfresh, howner, by rw [hdata, hop]; rfl, rfl⟩
  split at h
  · obtain ⟨left, hleft, hreturn⟩ := Check.bind_eq_ok.mp h
    unfold processCancelOrder at hleft
    split at hleft
    · cases hleft
    obtain ⟨pair, book, r, hbook, -, -, rfl⟩ := cancelOrder_eq_ok hleft
    cases hreturn
    exact .inr ⟨_, pair, book, r, hbook, rfl⟩
  · cases h

/-- **One transaction.** -/
theorem LimitsInv.afterTransaction (h : LimitsInv me) (tx : DexTransaction) :
    LimitsInv (afterTransaction P config me tx) := by
  unfold Superlight.afterTransaction
  split
  next me' trades hok =>
    rcases processDEXTransaction_eq_ok hok with
      ⟨order, hfresh, -, -, rfl⟩ | ⟨id, pair, book, r, hbook, rfl⟩
    · exact (h.enterOrder hfresh).chargeFees _
    · exact h.withdrawOrder hbook
  · exact h

variable (P config) in
/-- **Any transactions.** -/
theorem limitsInv_afterTransactions (txs : List DexTransaction) :
    LimitsInv (afterTransactions P config txs) := by
  refine foldlRecOn txs _ ⟨?_, by simp⟩ fun _ h tx _ => h.afterTransaction tx
  exact fun _ _ hnone => absurd hnone (Option.some_ne_none _).symm

/-- **When a trade keeps to the limits of both orders**, after any transactions: when the order that
came in is a purchase or a sale by name, or happens to have met a price it could accept. -/
theorem limits_kept_iff (P : Platform) (config : SuperlightConfig)
    (txs : List DexTransaction) (f : Fill) (hf : f ∈ (afterTransactions P config txs).fills) :
    let orders := (afterTransactions P config txs).orders
    f.WithinLimits orders ↔ (orders.get f.taker).side = orderSideBuy ∨
      (orders.get f.taker).side = orderSideSell ∨
      (orders.get f.taker).price ≤ f.trade.price :=
  ((limitsInv_afterTransactions P config txs).priced f hf).withinLimits_iff

/-- The data of a new order. -/
def placeOrderData (side : OrderSide) (pair : TradingPair) (price amount : Nat) : Bytes :=
  opPlaceOrder :: side :: (Address.bytes pair.baseAsset ++ Address.bytes pair.quoteAsset ++
    BigEndian.ofNatWidth 32 price ++ BigEndian.ofNatWidth 32 amount)

def plainConfig : SuperlightConfig where
  enabled := true
  makerFeeBps := 10
  takerFeeBps := 30
  maxOrdersPerAccount := 100

/-- A bid, and then a sale of the given side. -/
def bidThenSale (side : OrderSide) (bid ask : Nat) : List DexTransaction :=
  [{ sender := 7, data := placeOrderData orderSideBuy ⟨1, 2⟩ bid 3, timestamp := 0, blockNum := 0 },
    { sender := 8, data := placeOrderData side ⟨1, 2⟩ ask 3, timestamp := 0, blockNum := 0 }]

theorem limits_kept_bidThenSale :
    let me := afterTransactions plainPlatform plainConfig (bidThenSale orderSideSell 5 1)
    ∃ f ∈ me.fills, f.trade.price = 5 ∧ f.WithinLimits me.orders := by
  intro me
  have hsale : ∃ f ∈ me.fills, f.trade.price = 5 ∧
      (me.orders.get f.taker).side = orderSideSell := by
    decide +kernel
  obtain ⟨f, hf, hprice, hside⟩ := hsale
  refine ⟨f, hf, hprice, ?_⟩
  exact (limits_kept_iff plainPlatform plainConfig (bidThenSale orderSideSell 5 1) f hf).mpr
    (.inr (.inl hside))

/-- **A sale of a third side is filled below its limit.** -/
theorem limit_ignored :
    let me := afterTransactions plainPlatform plainConfig (bidThenSale 2 1 5)
    ∃ f ∈ me.fills, f.trade.price = 1 ∧ (f.seller me.orders).price = 5 ∧
      ¬ f.WithinLimits me.orders := by
  decide +kernel

end ProbeChain.Superlight
