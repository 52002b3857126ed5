/-
# The limit on open orders

The configuration has a limit `MaxOrdersPerAccount` on the open orders of an account.  `NewManager`
fills in a default for it and nothing reads it: an order is checked for its price and its amount and
then rests, however many there are.

So the number of open orders of an account is limited by the number of orders it has placed
(`openOrders_le_placed`), and an account that places the same bid over and over has them all open
(`Bidding.openOrders`).  The limit is kept in every run if and only if the exchange is switched off
(`orders_limited_iff`).
-/
import ProbeChain.Superlight.Cancel
import ProbeChain.Superlight.Manager

namespace ProbeChain.Superlight

open List MatchingEngine

/-! ## 1. Open orders -/

/-- The orders of the account that rest in a book, whatever its pair. -/
def MatchingEngine.openOrders (me : MatchingEngine) (account : Address) : List OrderRef :=
  (range me.orders.size).filter fun r => (me.orders.get r).owner = account ∧
    r ∈ (me.getOrCreateBook (me.orders.get r).pair).queue (me.orders.get r).buys

/-- All orders the account has placed. -/
def MatchingEngine.ownOrders (me : MatchingEngine) (account : Address) : List OrderRef :=
  (range me.orders.size).filter fun r => (me.orders.get r).owner = account

/-- The transaction asks for an order of the account. -/
def DexTransaction.places (account : Address) (tx : DexTransaction) : Bool :=
  tx.sender = account ∧ tx.data.head? = some opPlaceOrder

variable {P : Platform} {config : SuperlightConfig} {me : MatchingEngine} {account : Address}

theorem openOrders_sublist : (me.openOrders account).Sublist (me.ownOrders account) :=
  monotone_filter_right _ fun r hr => by
    simp only [decide_eq_true_eq] at hr ⊢
    exact hr.1

/-- **A new order.** -/
theorem length_ownOrders_enterOrder {order : Order} (h : EngineInv me) (hfresh : order.Fresh) :
    ((me.enterOrder P order).ownOrders account).length =
      (me.ownOrders account).length + if order.owner = account then 1 else 0 := by
  unfold ownOrders
  rw [h.size_enterOrder hfresh, range_succ, filter_append, length_append]
  congr 1
  · refine congrArg length (filter_congr fun r hr => ?_)
    rw [(follows_enterOrder_of_lt P order (mem_range.mp hr)).owner]
  · rw [filter_singleton, (follows_enterOrder_self P me order).owner]
    split <;> simp_all

/-- **One transaction.** -/
theorem length_ownOrders_afterTransaction (h : EngineInv me) (tx : DexTransaction) :
    ((afterTransaction P config me tx).ownOrders account).length ≤
      (me.ownOrders account).length + if tx.places account then 1 else 0 := by
  unfold afterTransaction
  split
  next me' trades hok =>
    rcases processDEXTransaction_eq_ok hok with
      ⟨order, hfresh, howner, hop, rfl⟩ | ⟨id, pair, book, r, hbook, rfl⟩
    · have hplaces : tx.places account = decide (order.owner = account) := by
        simp [DexTransaction.places, howner, hop]
      rw [hplaces]
      simp only [decide_eq_true_eq]
      exact (length_ownOrders_enterOrder h hfresh).le
    · have howner (r' : OrderRef) : ((me.withdrawOrder id pair book r).orders.get r').owner =
          (me.orders.get r').owner :=
        (congrArg Order.owner (fixed_withdrawOrder r') :)
      have hsame : (me.withdrawOrder id pair book r).ownOrders account = me.ownOrders account :=
        filter_congr fun r' _ => by rw [howner]
      rw [hsame]
      exact Nat.le_add_right _ _
  · exact Nat.le_add_right _ _

/-- **An account has no more open orders than it has placed.** -/
theorem openOrders_le_placed (txs : List DexTransaction) :
    ((afterTransactions P config txs).openOrders account).length ≤
      txs.countP (DexTransaction.places account) := by
  refine openOrders_sublist.length_le.trans ?_
  induction txs using reverseRecOn with
  | nil => simp [afterTransactions, ownOrders, Heap.empty]
  | append_singleton txs tx ih =>
    have hstep :
        ((afterTransaction P config (afterTransactions P config txs) tx).ownOrders account).length ≤
          _ :=
      length_ownOrders_afterTransaction (limitsInv_afterTransactions P config txs).books tx
    rw [countP_append, countP_singleton]
    rw [afterTransactions, foldl_append]
    exact hstep.trans (Nat.add_le_add_right ih _)

/-! ## 2. One bid after another -/

variable (P config me) in
/-- The manager reads back the data of a new order. -/
theorem processPlaceOrder_placeOrderData (tx : DexTransaction) (side : OrderSide)
    (pair : TradingPair) {price amount : Nat} (hprice : price < 256 ^ 32)
    (hamount : amount < 256 ^ 32) :
    processPlaceOrder P config me tx (placeOrderData side pair price amount).tail = (do
      let placed ← me.placeOrder P tx.sender pair side (some price)
          (some amount) tx.timestamp tx.blockNum
      let charged := chargeFees config placed me.fills.length
      return (charged, (charged.fills.drop me.fills.length).map Fill.trade)) := by
  have hbase := Address.length_bytes pair.baseAsset
  have hquote := Address.length_bytes pair.quoteAsset
  have hskip (a : Address) (n : Nat) (hn : 20 ≤ n) : (Address.bytes a).drop n = [] :=
    drop_eq_nil_of_le ((Address.length_bytes a).trans_le hn)
  have hlast : (BigEndian.ofNatWidth 32 amount).take 32 = BigEndian.ofNatWidth 32 amount :=
    take_of_length_le (BigEndian.ofNatWidth_length _ _).le
  unfold processPlaceOrder
  simp [placeOrderData, drop_append, hbase, hquote, hskip, hlast, bytesToAddress_bytes,
    BigEndian.toNat_ofNatWidth _ _ hprice, BigEndian.toNat_ofNatWidth _ _ hamount]

theorem afterTransaction_placeOrderData (henabled : config.enabled = true) {tx : DexTransaction}
    {side : OrderSide} {pair : TradingPair} {price amount : Nat}
    (hdata : tx.data = placeOrderData side pair price amount)
    (hprice : 0 < price ∧ price < 256 ^ 32) (hamount : 0 < amount ∧ amount < 256 ^ 32) :
    ∃ order : Order, order.Fresh ∧ order.owner = tx.sender ∧ order.pair = pair ∧ order.side = side ∧
      afterTransaction P config me tx =
        chargeFees config (me.enterOrder P order) me.fills.length := by
  obtain ⟨placed, hplaced⟩ : ∃ placed, me.placeOrder P tx.sender pair side (some price)
      (some amount) tx.timestamp
      tx.blockNum = .ok placed := by
    have hpositive {x : Nat} (hx : 0 < x) (e : DexError) : positive (some (x : Int)) e = .ok x :=
      if_pos (Int.natCast_pos.mpr hx)
    rw [placeOrder, hpositive hprice.1, hpositive hamount.1]
    exact ⟨_, rfl⟩
  obtain ⟨order, hfresh, -, howner, hpair, hside, -, rfl⟩ := placeOrder_eq_ok hplaced
  refine ⟨order, hfresh, howner, hpair, hside, ?_⟩
  have hplace := processPlaceOrder_placeOrderData P config me tx side pair hprice.2 hamount.2
  rw [hplaced] at hplace
  unfold afterTransaction processDEXTransaction
  rw [if_neg (by simp [henabled]), hdata]
  simp only [placeOrderData, tail_cons] at hplace ⊢
  rw [if_pos trivial, hplace]
  rfl

/-- An order that finds nothing to trade with rests. -/
theorem enterOrder_unmatched {order : Order} {b : Bool} (hfresh : order.Fresh)
    (hbuys : order.buys = !b) (hempty : (me.getOrCreateBook order.pair).levels b = []) :
    ∃ book, (me.enterOrder P order).books order.pair = some book ∧ book.levels b = [] ∧
      (book.queue !b).Perm (me.orders.size :: (me.getOrCreateBook order.pair).queue !b) := by
  obtain ⟨hlevels, hother, hmatching⟩ := matched_levels P me hbuys
  rw [hempty] at hlevels hmatching
  have hleft : 0 < order.remaining := by
    rw [Order.remaining, hfresh.filled, sub_zero]
    exact hfresh.amount
  have horder : (me.matched P order).2.orders.get me.orders.size = order := by
    rw [hmatching]
    exact Heap.get_alloc_self _ _
  have hstatus : order.status ≠ .cancelled := by
    rw [hfresh.status]
    rintro ⟨⟩
  have hfollows := follows_enterOrder_self P me order
  rw [orders_enterOrder] at hfollows
  obtain ⟨hsame, hkept⟩ :=
    levels_addOrder (me.matched P order).1 P.levelSort me.orders.size (hfollows.buys.trans hbuys)
  rw [Bool.not_not] at hkept
  refine ⟨_, books_enterOrder_self order, ?_⟩
  rw [restOrder_book, horder, if_pos ⟨hleft, hstatus⟩]
  refine ⟨hkept.trans hlevels, ?_⟩
  rw [OrderBook.queue, OrderBook.queue, hsame, hother]
  exact perm_queueOf_addToLevels _ _ _ _

/-- A bid for one at the price one. -/
def smallBid (account : Address) : DexTransaction where
  sender := account
  data := placeOrderData orderSideBuy ⟨1, 2⟩ 1 1
  timestamp := 0
  blockNum := 0

/-- There are `n` orders, and they are all bids of the account that rest in one book. -/
structure Bidding (account : Address) (n : Nat) (me : MatchingEngine) : Prop where
  size : me.orders.size = n
  asks : (me.getOrCreateBook ⟨1, 2⟩).levels false = []
  owner : ∀ r < n, (me.orders.get r).owner = account
  rests : ∀ r < n, r ∈ (me.getOrCreateBook ⟨1, 2⟩).queue true

variable {n : Nat}

/-- **One more bid.** -/
theorem Bidding.afterTransaction (henabled : config.enabled = true) (hinv : EngineInv me)
    (h : Bidding account n me) :
    Bidding account (n + 1) (afterTransaction P config me (smallBid account)) := by
  obtain ⟨order, hfresh, howner, hpair, hside, hafter⟩ : ∃ order : Order, order.Fresh ∧
      order.owner = account ∧ order.pair = ⟨1, 2⟩ ∧ order.side = orderSideBuy ∧
      Superlight.afterTransaction P config me (smallBid account) =
        chargeFees config (me.enterOrder P order) me.fills.length := by
    have hdata : (smallBid account).data = placeOrderData orderSideBuy ⟨1, 2⟩ 1 1 := rfl
    exact afterTransaction_placeOrderData henabled hdata (by decide) (by decide)
  have hbuys : order.buys = !false := by simp [Order.buys, hside]
  have hasks := h.asks
  rw [← hpair] at hasks
  obtain ⟨book, hbook, hempty, hqueue⟩ := enterOrder_unmatched (P := P) hfresh hbuys hasks
  have hsize : (me.enterOrder P order).orders.size = n + 1 := by
    rw [hinv.size_enterOrder hfresh, h.size]
  rw [hpair] at hbook hqueue
  have hnew : (chargeFees config (me.enterOrder P order) me.fills.length).getOrCreateBook ⟨1, 2⟩ =
      book :=
    getOrCreateBook_of_some hbook
  rw [hafter]
  refine ⟨hsize, by rwa [hnew], fun r hr => ?_, fun r hr => ?_⟩
  · by_cases hne : r = me.orders.size
    · rw [hne, ← howner]
      exact (follows_enterOrder_self P me order).owner
    · have hlt : r < n := by
        rw [h.size] at hne
        omega
      rw [← h.owner r hlt]
      exact (follows_enterOrder_of_lt P order (hlt.trans_eq h.size.symm)).owner
  · rw [hnew]
    refine hqueue.mem_iff.mpr (mem_cons.mpr ?_)
    rcases Nat.lt_succ_iff_lt_or_eq.mp hr with hlt | rfl
    · exact .inr (h.rests r hlt)
    · exact .inl h.size.symm

variable (P account) in
/-- **Any number of bids.** -/
theorem bidding_replicate (henabled : config.enabled = true) (n : Nat) :
    Bidding account n (afterTransactions P config (replicate n (smallBid account))) := by
  induction n with
  | zero =>
    exact ⟨rfl, rfl, fun r hr => absurd hr (Nat.not_lt_zero r),
      fun r hr => absurd hr (Nat.not_lt_zero r)⟩
  | succ n ih =>
    rw [replicate_succ', afterTransactions, foldl_append]
    exact ih.afterTransaction henabled (limitsInv_afterTransactions P config _).books

/-- All of them are open. -/
theorem Bidding.openOrders (hinv : EngineInv me) (h : Bidding account n me) :
    (me.openOrders account).length = n := by
  have hall : me.openOrders account = range me.orders.size := by
    refine filter_eq_self.mpr fun r hr => decide_eq_true ?_
    rw [mem_range, h.size] at hr
    have hresting := hinv.resting_queue (h.rests r hr)
    refine ⟨h.owner r hr, ?_⟩
    rw [hresting.pair, hresting.buys]
    exact h.rests r hr
  rw [hall, length_range, h.size]

/-- **The limit on open orders is kept in every run if and only if the exchange is switched off.**
What limits them is the number of orders an account has asked for. -/
theorem orders_limited_iff (P : Platform) (config : SuperlightConfig) :
    ((∀ txs account, ((afterTransactions P config txs).openOrders account).length ≤
        config.maxOrdersPerAccount.toNat) ↔ config.enabled = false) ∧
      ∀ txs account, ((afterTransactions P config txs).openOrders account).length ≤
        txs.countP (DexTransaction.places account) := by
  refine ⟨⟨fun h => ?_, fun hdisabled txs account => ?_⟩,
    fun txs account => openOrders_le_placed txs⟩
  · by_contra henabled
    rw [Bool.not_eq_false] at henabled
    have hbids := bidding_replicate P 0 henabled (config.maxOrdersPerAccount.toNat + 1)
    have hcount := hbids.openOrders (limitsInv_afterTransactions P config _).books
    have hlimit := h (replicate (config.maxOrdersPerAccount.toNat + 1) (smallBid 0)) 0
    omega
  · -- nothing is ever placed
    have hnone : afterTransactions P config txs = {} := by
      induction txs using reverseRecOn with
      | nil => rfl
      | append_singleton txs tx ih =>
        rw [afterTransactions, foldl_append, ← afterTransactions, ih, foldl_cons, foldl_nil,
          afterTransaction, processDEXTransaction, if_pos hdisabled]
    rw [hnone]
    exact Nat.zero_le _

/-- **A second open order where one is allowed.** -/
theorem limit_exceeded :
    let config := { plainConfig with maxOrdersPerAccount := 1 }
    ((afterTransactions plainPlatform config [smallBid 7, smallBid 7]).openOrders 7).length =
      2 := by
  decide +kernel

end ProbeChain.Superlight
