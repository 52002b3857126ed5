/-
# The matching engine of the Superlight exchange

`core/superlight/types.go`, `orderbook.go` and `engine.go`.  A book holds the resting orders of a
trading pair in price levels, bids from the highest price down and asks from the lowest up.  An
incoming order is matched against the other side, best level first and first come first served in
each level; what is left of it rests in the book.

Orders are objects: a book reaches them through its levels and through the index by ID, and a trade
changes the order under both.  So an order is a number in a heap here, and levels and index hold
numbers.  IDs do not tell orders apart (`generateOrderID` hashes bytes of which the lengths are not
kept, and the same order can be placed twice), so everything below is about the objects.

Later modules use what one trade does to its maker and its taker (`trade_get_maker`,
`trade_get_taker`, `trade_fills`), when the two loops of `matchOrder` end (`matchLevel_exit`,
`matchLevels_exit`), and that both keep whatever every trade keeps (`matchLevels_inv`).
-/
import ProbeChain.Common.Types
import ProbeChain.Lib.Heap
import Mathlib.Data.List.Sort

namespace ProbeChain.Superlight

open Function

/-! ## 1. Orders and trades -/

structure TradingPair where
  baseAsset : Address
  quoteAsset : Address
  deriving DecidableEq, Inhabited

/-- A byte of the transaction.  Only two values have a name. -/
abbrev OrderSide := UInt8

def orderSideBuy : OrderSide := 0
def orderSideSell : OrderSide := 1

inductive OrderStatus where
  | opened
  | filled
  | partiallyFilled
  | cancelled
  deriving DecidableEq, Inhabited

structure Order where
  id : Hash
  owner : Address
  pair : TradingPair
  side : OrderSide
  price : Int
  amount : Int
  filled : Int := 0
  status : OrderStatus := .opened
  timestamp : UInt64
  blockNum : UInt64
  deriving DecidableEq, Inhabited

namespace Order

def remaining (o : Order) : Int := o.amount - o.filled

def isFilled (o : Order) : Bool := o.amount ≤ o.filled

def addFilled (amount : Int) (o : Order) : Order := { o with filled := o.filled + amount }

theorem remaining_addFilled (amount : Int) (o : Order) :
    (o.addFilled amount).remaining = o.remaining - amount :=
  (sub_sub _ _ _).symm

theorem isFilled_iff {o : Order} : o.isFilled = true ↔ o.remaining ≤ 0 := by
  rw [isFilled, decide_eq_true_iff, remaining, sub_nonpos]

def setStatus (status : OrderStatus) (o : Order) : Order := { o with status := status }

@[simp] theorem remaining_setStatus (status : OrderStatus) (o : Order) :
    (o.setStatus status).remaining = o.remaining := rfl

end Order

abbrev OrderRef := Nat

structure Trade where
  id : Hash
  makerOrder : Hash
  takerOrder : Hash
  maker : Address
  taker : Address
  pair : TradingPair
  price : Int
  amount : Int
  makerFee : Int := 0
  takerFee : Int := 0
  timestamp : UInt64
  blockNum : UInt64
  deriving DecidableEq

/-- A trade and the order objects it was made between.  The source keeps the trade only, which names
them by ID. -/
structure Fill where
  trade : Trade
  maker : OrderRef
  taker : OrderRef
  deriving DecidableEq

inductive DexError where
  | orderNotFound | invalidPrice | invalidAmount | notOrderOwner | orderAlreadyFilled
  | dexNotEnabled | invalidDEXOp
  deriving DecidableEq

/-! ## 2. The order book -/

structure PriceLevel where
  price : Int
  orders : List OrderRef
  deriving DecidableEq

structure OrderBook where
  pair : TradingPair
  bids : List PriceLevel := []
  asks : List PriceLevel := []
  orderIndex : Hash → Option OrderRef := fun _ => none

def OrderBook.bestBid (ob : OrderBook) : Option Int := ob.bids.head?.map PriceLevel.price

def OrderBook.bestAsk (ob : OrderBook) : Option Int := ob.asks.head?.map PriceLevel.price

/-- The order of the bids: `Price.Cmp > 0`. -/
def PriceLevel.above (a b : PriceLevel) : Bool := b.price < a.price

/-- The order of the asks: `Price.Cmp < 0`. -/
def PriceLevel.below (a b : PriceLevel) : Bool := a.price < b.price

/-- `sort.Slice` on price levels: a permutation in which nothing stands behind a level it is less
than. -/
structure LevelSort where
  sort : (PriceLevel → PriceLevel → Bool) → List PriceLevel → List PriceLevel
  perm : ∀ less l, (sort less l).Perm l
  sorted : ∀ less l, (∀ a b c, less b a = false → less c b = false → less c a = false) →
    (∀ a b, less b a = false ∨ less a b = false) →
    (sort less l).Pairwise fun a b => less b a = false

/-- One that keeps its promises. -/
def LevelSort.insertion : LevelSort where
  sort less := List.insertionSort fun a b => less b a = false
  perm _ := List.perm_insertionSort _
  sorted less l htrans htotal :=
    haveI : Std.Total fun a b => less b a = false := ⟨htotal⟩
    haveI : IsTrans _ fun a b => less b a = false := ⟨htrans⟩
    List.pairwise_insertionSort _ l

/-- The code outside this repository that the engine relies on. -/
structure Platform where
  sha256 : Bytes → Hash
  levelSort : LevelSort

/-- A digest that keeps the last 32 bytes, and insertion sort. -/
def plainPlatform : Platform where
  sha256 := bytesToHash
  levelSort := .insertion

/-- The order joins the level of its price, if there is one. -/
def joinLevel (r : OrderRef) (price : Int) : List PriceLevel → Option (List PriceLevel)
  | [] => none
  | level :: rest =>
    if level.price = price then some ({ level with orders := level.orders ++ [r] } :: rest)
    else (joinLevel r price rest).map (level :: ·)

/-- What `addToBids` and `addToAsks` have in common. -/
def addToLevels (S : LevelSort) (less : PriceLevel → PriceLevel → Bool) (r : OrderRef) (price : Int)
    (levels : List PriceLevel) : List PriceLevel :=
  match joinLevel r price levels with
  | some levels => levels
  | none => S.sort less (levels ++ [{ price := price, orders := [r] }])

/-- The first order with the ID leaves the level of the price, which may not be the order that was
looked up. -/
def removeFromLevels (orders : Heap Order) (id : Hash) (price : Int) :
    List PriceLevel → List PriceLevel
  | [] => []
  | level :: rest =>
    if level.price = price then
      let left := level.orders.eraseP fun r => (orders.get r).id = id
      if left = [] then rest else { level with orders := left } :: rest
    else level :: removeFromLevels orders id price rest

namespace OrderBook

variable (ob : OrderBook) (orders : Heap Order)

def addToBids (S : LevelSort) (r : OrderRef) : OrderBook :=
  { ob with bids := addToLevels S PriceLevel.above r (orders.get r).price ob.bids }

def addToAsks (S : LevelSort) (r : OrderRef) : OrderBook :=
  { ob with asks := addToLevels S PriceLevel.below r (orders.get r).price ob.asks }

/-- Whatever is not a purchase is a sale. -/
def addOrder (S : LevelSort) (r : OrderRef) : OrderBook :=
  let ob := { ob with orderIndex := update ob.orderIndex (orders.get r).id (some r) }
  if (orders.get r).side = orderSideBuy then ob.addToBids orders S r else ob.addToAsks orders S r

def removeOrder (id : Hash) : OrderBook :=
  match ob.orderIndex id with
  | none => ob
  | some r =>
    let order := orders.get r
    let ob := { ob with orderIndex := update ob.orderIndex id none }
    if order.side = orderSideBuy then
      { ob with bids := removeFromLevels orders order.id order.price ob.bids }
    else { ob with asks := removeFromLevels orders order.id order.price ob.asks }

end OrderBook

/-! ## 3. Matching -/

/-- The bytes of an order ID before they are hashed. -/
def orderIDData (owner : Address) (pair : TradingPair) (side : OrderSide) (price amount : Int)
    (blockNum : UInt64) : Bytes :=
  Address.bytes owner ++ Address.bytes pair.baseAsset ++ Address.bytes pair.quoteAsset ++ [side] ++
    BigEndian.ofNat price.natAbs ++ BigEndian.ofNat amount.natAbs ++ BigEndian.ofNat blockNum.toNat

def generateOrderID (P : Platform) (owner : Address) (pair : TradingPair) (side : OrderSide)
    (price amount : Int) (blockNum : UInt64) : Hash :=
  P.sha256 (orderIDData owner pair side price amount blockNum)

def tradeIDData (makerID takerID : Hash) (amount : Int) (blockNum : UInt64) : Bytes :=
  Hash.bytes makerID ++ Hash.bytes takerID ++ BigEndian.ofNat amount.natAbs ++
    BigEndian.ofNat blockNum.toNat

def generateTradeID (P : Platform) (makerID takerID : Hash) (amount : Int)
    (blockNum : UInt64) : Hash :=
  P.sha256 (tradeIDData makerID takerID amount blockNum)

/-- What the loops change, other than the levels. -/
structure Matching where
  orders : Heap Order
  orderIndex : Hash → Option OrderRef
  fills : List Fill := []

/-- The price test.  It is written once for each side, and an order of a third side passes it. -/
def Order.refuses (order : Order) (price : Int) : Bool :=
  (order.side = orderSideBuy ∧ order.price < price) ∨
    (order.side = orderSideSell ∧ price < order.price)

/-- How much two orders trade. -/
def fillAmount (order makerOrder : Order) : Int :=
  if makerOrder.remaining < order.remaining then makerOrder.remaining else order.remaining

variable (P : Platform) (taker : OrderRef) (timestamp blockNum : UInt64)

/-- One turn of the inner loop, but for what it does to the level. -/
def trade (price : Int) (maker : OrderRef) (m : Matching) : Matching :=
  let order := m.orders.get taker
  let makerOrder := m.orders.get maker
  let amount := fillAmount order makerOrder
  let trade : Trade :=
    { id := generateTradeID P makerOrder.id order.id amount blockNum, makerOrder := makerOrder.id,
      takerOrder := order.id, maker := makerOrder.owner, taker := order.owner, pair := order.pair,
      price := price, amount := amount, timestamp := timestamp, blockNum := blockNum }
  let orders := (m.orders.modify maker (.addFilled amount)).modify taker (.addFilled amount)
  let makerFilled := (orders.get maker).isFilled
  { orders := orders.modify maker (.setStatus (if makerFilled then .filled else .partiallyFilled))
    orderIndex := if makerFilled then update m.orderIndex makerOrder.id none else m.orderIndex
    fills := m.fills ++ [{ trade := trade, maker := maker, taker := taker }] }

/-- The inner loop.  A maker that is not filled ends it. -/
def matchLevel (price : Int) : List OrderRef → Matching → List OrderRef × Matching
  | [], m => ([], m)
  | maker :: rest, m =>
    if 0 < (m.orders.get taker).remaining then
      let m' := trade P taker timestamp blockNum price maker m
      if (m'.orders.get maker).isFilled then matchLevel price rest m' else (maker :: rest, m')
    else (maker :: rest, m)

/-- The outer loop.  A level that is not emptied ends it. -/
def matchLevels : List PriceLevel → Matching → List PriceLevel × Matching
  | [], m => ([], m)
  | level :: rest, m =>
    if 0 < (m.orders.get taker).remaining then
      if (m.orders.get taker).refuses level.price then (level :: rest, m)
      else
        let (orders, m') := matchLevel P taker timestamp blockNum level.price level.orders m
        if orders = [] then matchLevels rest m' else ({ level with orders := orders } :: rest, m')
    else (level :: rest, m)

def matchOrder (book : OrderBook) (orders : Heap Order) : OrderBook × Matching :=
  let start : Matching := { orders := orders, orderIndex := book.orderIndex }
  if (orders.get taker).side = orderSideBuy then
    let (asks, m) := matchLevels P taker timestamp blockNum book.asks start
    ({ book with asks := asks, orderIndex := m.orderIndex }, m)
  else
    let (bids, m) := matchLevels P taker timestamp blockNum book.bids start
    ({ book with bids := bids, orderIndex := m.orderIndex }, m)

/-! ## 4. The engine -/

structure MatchingEngine where
  orders : Heap Order := .empty
  books : TradingPair → Option OrderBook := fun _ => none
  fills : List Fill := []

/-- A number that has to be given and be positive. -/
def positive (x : Option Int) (e : DexError) : Except DexError Int :=
  match x with
  | some x => if 0 < x then .ok x else .error e
  | none => .error e

/-- An order that is left over rests in the book. -/
def restOrder (S : LevelSort) (r : OrderRef) (book : OrderBook) (orders : Heap Order) :
    OrderBook × Heap Order :=
  let order := orders.get r
  if 0 < order.remaining ∧ order.status ≠ .cancelled then
    let orders := if 0 < order.filled then orders.modify r (.setStatus .partiallyFilled) else orders
    (book.addOrder orders S r, orders)
  else if order.remaining = 0 then (book, orders.modify r (.setStatus .filled))
  else (book, orders)

namespace MatchingEngine

variable (me : MatchingEngine)

def getOrCreateBook (pair : TradingPair) : OrderBook := (me.books pair).getD { pair := pair }

/-- The book and the orders after a new order has been matched. -/
def matched (order : Order) : OrderBook × Matching :=
  matchOrder P me.orders.size order.timestamp order.blockNum (me.getOrCreateBook order.pair)
    (me.orders.alloc order)

/-- What `PlaceOrder` does after the checks. -/
def enterOrder (order : Order) : MatchingEngine :=
  let (book, m) := me.matched P order
  let (book, orders) := restOrder P.levelSort me.orders.size book m.orders
  { orders := orders, books := update me.books order.pair (some book),
    fills := me.fills ++ m.fills }

/-- The order returned is the last object of the engine, the trades returned are its last trades. -/
def placeOrder (owner : Address) (pair : TradingPair) (side : OrderSide) (price amount : Option Int)
    (timestamp blockNum : UInt64) : Except DexError MatchingEngine := do
  let price ← positive price .invalidPrice
  let amount ← positive amount .invalidAmount
  return me.enterOrder P
    { id := generateOrderID P owner pair side price amount blockNum, owner := owner, pair := pair,
      side := side, price := price, amount := amount, timestamp := timestamp, blockNum := blockNum }

/-- The order `r`, which the index of the book has under the ID, is cancelled and taken out of the
book. -/
def withdrawOrder (id : Hash) (pair : TradingPair) (book : OrderBook) (r : OrderRef) :
    MatchingEngine :=
  let orders := me.orders.modify r (.setStatus .cancelled)
  { me with orders := orders, books := update me.books pair (some (book.removeOrder orders id)) }

def cancelInBook (id : Hash) (owner : Address) (pair : TradingPair) (book : OrderBook)
    (r : OrderRef) :
    Except DexError MatchingEngine :=
  let order := me.orders.get r
  if order.owner ≠ owner then .error .notOrderOwner
  else if order.status = .filled ∨ order.status = .cancelled then .error .orderAlreadyFilled
  else .ok (me.withdrawOrder id pair book r)

/-- `visit` is the order in which Go happens to range over the books. -/
def cancelOrder (id : Hash) (owner : Address) : List TradingPair → Except DexError MatchingEngine
  | [] => .error .orderNotFound
  | pair :: visit =>
    match me.books pair with
    | none => cancelOrder id owner visit
    | some book =>
      match book.orderIndex id with
      | none => cancelOrder id owner visit
      | some r => me.cancelInBook id owner pair book r

end MatchingEngine

/-- What is asked of the engine. -/
inductive Call where
  | placeOrder (owner : Address) (pair : TradingPair) (side : OrderSide) (price amount : Option Int)
      (timestamp blockNum : UInt64)
  | cancelOrder (id : Hash) (owner : Address) (visit : List TradingPair)

def MatchingEngine.call (P : Platform) (me : MatchingEngine) : Call → Except DexError MatchingEngine
  | .placeOrder owner pair side price amount timestamp blockNum =>
    me.placeOrder P owner pair side price amount timestamp blockNum
  | .cancelOrder id owner visit => me.cancelOrder id owner visit

/-- A call that is answered with an error changes nothing. -/
def MatchingEngine.afterCall (P : Platform) (me : MatchingEngine) (c : Call) : MatchingEngine :=
  match me.call P c with
  | .ok me => me
  | .error _ => me

/-- The engine after the calls, one after another, from the start. -/
def MatchingEngine.afterCalls (P : Platform) (calls : List Call) : MatchingEngine :=
  calls.foldl (afterCall P) {}

/-! ## 5. The loops -/

/-- What is agreed on when an order is placed. -/
def Order.terms (o : Order) : TradingPair × OrderSide × Int × Int :=
  (o.pair, o.side, o.price, o.amount)

theorem Order.refuses_congr {o o' : Order} (h : o'.terms = o.terms) (price : Int) :
    o'.refuses price = o.refuses price := by
  simp only [terms, Prod.mk.injEq] at h
  rw [refuses, refuses, h.2.1, h.2.2.1]

theorem Order.terms_addFilled (amount : Int) (o : Order) : (o.addFilled amount).terms = o.terms :=
  rfl

theorem Order.terms_setStatus (status : OrderStatus) (o : Order) :
    (o.setStatus status).terms = o.terms := rfl

/-- The maker is filled if it has no more to give than is wanted. -/
theorem isFilled_addFilled (order makerOrder : Order) :
    (makerOrder.addFilled (fillAmount order makerOrder)).isFilled = true ↔
      makerOrder.remaining ≤ order.remaining := by
  rw [Order.isFilled_iff, Order.remaining_addFilled, fillAmount]
  split <;> omega

/-- One of the two is filled. -/
theorem fillAmount_eq_remaining {order makerOrder : Order}
    (h : order.remaining < makerOrder.remaining) :
    fillAmount order makerOrder = order.remaining :=
  if_neg h.not_gt

theorem fillAmount_eq_maker_iff (order makerOrder : Order) :
    makerOrder.remaining - fillAmount order makerOrder = 0 ↔
      makerOrder.remaining ≤ order.remaining := by
  unfold fillAmount
  split <;> omega

theorem fillAmount_pos {order makerOrder : Order} (h : 0 < order.remaining)
    (h' : 0 < makerOrder.remaining) :
    0 < fillAmount order makerOrder := by
  unfold fillAmount
  split
  · exact h'
  · exact h

theorem fillAmount_le (order makerOrder : Order) :
    fillAmount order makerOrder ≤ order.remaining ∧
    fillAmount order makerOrder ≤ makerOrder.remaining := by
  unfold fillAmount
  split
  · exact ⟨le_of_lt ‹_›, le_rfl⟩
  · exact ⟨le_rfl, le_of_not_gt ‹_›⟩

section
variable {P : Platform} {taker : OrderRef} {timestamp blockNum : UInt64} {price : Int}
  {maker : OrderRef}
  {m : Matching}

/-- A trade keeps to the terms of every order. -/
theorem terms_trade (r : OrderRef) :
    ((trade P taker timestamp blockNum price maker m).orders.get r).terms =
      (m.orders.get r).terms := by
  unfold trade
  rw [Heap.view_modify _ (Order.terms_setStatus _), Heap.view_modify _ (Order.terms_addFilled _),
    Heap.view_modify _ (Order.terms_addFilled _)]

/-- Only the two orders are touched. -/
theorem trade_get_of_ne {r : OrderRef} (hmaker : r ≠ maker) (htaker : r ≠ taker) :
    (trade P taker timestamp blockNum price maker m).orders.get r = m.orders.get r := by
  unfold trade
  rw [Heap.get_modify_of_ne _ _ hmaker, Heap.get_modify_of_ne _ _ htaker,
    Heap.get_modify_of_ne _ _ hmaker]

theorem trade_get_taker (hne : taker ≠ maker) :
    (trade P taker timestamp blockNum price maker m).orders.get taker =
      (m.orders.get taker).addFilled (fillAmount (m.orders.get taker) (m.orders.get maker)) := by
  unfold trade
  rw [Heap.get_modify_of_ne _ _ hne, Heap.get_modify_self, Heap.get_modify_of_ne _ _ hne]

theorem trade_get_maker (hne : maker ≠ taker) :
    (trade P taker timestamp blockNum price maker m).orders.get maker =
      ((m.orders.get maker).addFilled
        (fillAmount (m.orders.get taker) (m.orders.get maker))).setStatus
        (if (m.orders.get maker).remaining ≤ (m.orders.get taker).remaining then .filled
          else .partiallyFilled) := by
  unfold trade
  rw [Heap.get_modify_self, Heap.get_modify_of_ne _ _ hne, Heap.get_modify_self]
  simp only [isFilled_addFilled]

variable (P taker timestamp blockNum price maker m) in
theorem trade_fills : ∃ t : Trade,
    (trade P taker timestamp blockNum price maker m).fills = m.fills ++ [⟨t, maker, taker⟩] ∧
      t.price = price ∧ t.amount = fillAmount (m.orders.get taker) (m.orders.get maker) :=
  ⟨_, rfl, rfl, rfl⟩

/-- A maker that is filled leaves the index, and so does whatever else has its ID. -/
theorem trade_orderIndex : (trade P taker timestamp blockNum price maker m).orderIndex =
    if ((trade P taker timestamp blockNum price maker m).orders.get maker).isFilled then
      update m.orderIndex (m.orders.get maker).id none
    else m.orderIndex := by
  unfold trade
  rw [Heap.get_modify_self]
  rfl

theorem isFilled_trade (hne : maker ≠ taker) :
    ((trade P taker timestamp blockNum price maker m).orders.get maker).isFilled = true ↔
      (m.orders.get maker).remaining ≤ (m.orders.get taker).remaining := by
  rw [trade_get_maker hne]
  exact isFilled_addFilled _ _

/-- **A maker that is not filled has filled the taker**, so that both loops end. -/
theorem remaining_trade
    (h : ((trade P taker timestamp blockNum price maker m).orders.get maker).isFilled ≠ true)
    (hpos : 0 < (m.orders.get taker).remaining) :
    ((trade P taker timestamp blockNum price maker m).orders.get taker).remaining = 0 := by
  by_cases hne : maker = taker
  · -- an order that meets itself would be filled twice over
    subst hne
    refine absurd ?_ h
    unfold trade
    rw [Heap.get_modify_self, Heap.get_modify_self, Heap.get_modify_self, Order.isFilled_iff,
      Order.remaining_setStatus, Order.remaining_addFilled, Order.remaining_addFilled,
      fillAmount, ite_self]
    omega
  · rw [Ne, isFilled_trade hne, not_le] at h
    rw [trade_get_taker (Ne.symm hne), fillAmount_eq_remaining h,
      Order.remaining_addFilled, sub_self]

variable (P taker timestamp blockNum)

/-- The inner loop ends with the level empty or the order filled. -/
theorem matchLevel_exit : ∀ (orders : List OrderRef) (m : Matching),
    (matchLevel P taker timestamp blockNum price orders m).1 = [] ∨
      ((matchLevel P taker timestamp blockNum price orders m).2.orders.get taker).remaining ≤ 0
  | [], m => .inl rfl
  | maker :: rest, m => by
    rw [matchLevel]
    split
    next hpos =>
      dsimp only
      split
      · exact matchLevel_exit rest _
      next hfilled =>
        exact .inr (remaining_trade hfilled hpos).le
    next hpos =>
      exact .inr (not_lt.mp hpos)

/-- When the outer loop ends. -/
theorem matchLevels_exit : ∀ (levels : List PriceLevel) (m : Matching),
    let result := matchLevels P taker timestamp blockNum levels m
    (result.2.orders.get taker).remaining ≤ 0 ∨
      ∀ level ∈ result.1.head?, (result.2.orders.get taker).refuses level.price = true
  | [], m => .inr (by simp [matchLevels])
  | level :: rest, m => by
    rw [matchLevels]
    split
    · split
      next hrefuses =>
        exact .inr (by simpa using hrefuses)
      · dsimp only
        split
        · exact matchLevels_exit rest _
        next hleft =>
          exact .inl
            ((matchLevel_exit P taker timestamp blockNum level.orders m).resolve_left hleft)
    next hpos =>
      exact .inl (not_lt.mp hpos)

/-- No level is left empty. -/
theorem matchLevels_ne_nil : ∀ {levels : List PriceLevel} {m : Matching},
    (∀ level ∈ levels, level.orders ≠ []) →
    ∀ level ∈ (matchLevels P taker timestamp blockNum levels m).1, level.orders ≠ []
  | [], _, h => h
  | level :: rest, m, h => by
    rw [matchLevels]
    split
    · split
      · exact h
      · dsimp only
        split
        · exact matchLevels_ne_nil fun l hl => h l (List.mem_cons_of_mem _ hl)
        next hleft =>
          exact List.forall_mem_cons.mpr ⟨hleft, (List.forall_mem_cons.mp h).2⟩
    · exact h

/-- `Q` is kept by a trade of the order with the first order of the best level.  The level may be
empty then. -/
def KeptByTrade (Q : List PriceLevel → Matching → Prop) : Prop :=
  ∀ {price : Int} {maker : OrderRef} {orders : List OrderRef} {rest : List PriceLevel}
    {m : Matching},
    Q (⟨price, maker :: orders⟩ :: rest) m → 0 < (m.orders.get taker).remaining →
    (m.orders.get taker).refuses price = false →
    let m' := trade P taker timestamp blockNum price maker m
    Q (⟨price, if (m'.orders.get maker).isFilled then orders else maker :: orders⟩ :: rest) m'

variable {P taker timestamp blockNum} {Q : List PriceLevel → Matching → Prop}

theorem matchLevel_inv (htrade : KeptByTrade P taker timestamp blockNum Q)
    {rest : List PriceLevel} :
    ∀ {orders : List OrderRef} {m : Matching}, (m.orders.get taker).refuses price = false →
      Q (⟨price, orders⟩ :: rest) m →
      Q (⟨price, (matchLevel P taker timestamp blockNum price orders m).1⟩ :: rest)
        (matchLevel P taker timestamp blockNum price orders m).2
  | [], _, _, h => h
  | maker :: orders, m, haccepts, h => by
    rw [matchLevel]
    split
    next hpos =>
      have hkept := htrade h hpos haccepts
      dsimp only at hkept ⊢
      split
      next hfilled =>
        rw [if_pos hfilled] at hkept
        refine matchLevel_inv htrade ?_ hkept
        rwa [Order.refuses_congr (terms_trade taker)]
      next hfilled =>
        rwa [if_neg hfilled] at hkept
    · exact h

/-- **What every trade keeps, and the removal of an empty level, both loops keep.** -/
theorem matchLevels_inv (htrade : KeptByTrade P taker timestamp blockNum Q)
    (hdrop : ∀ {price : Int} {rest : List PriceLevel} {m : Matching},
      Q (⟨price, []⟩ :: rest) m → Q rest m) :
    ∀ {levels : List PriceLevel} {m : Matching}, Q levels m →
      Q (matchLevels P taker timestamp blockNum levels m).1
        (matchLevels P taker timestamp blockNum levels m).2
  | [], _, h => h
  | level :: rest, m, h => by
    rw [matchLevels]
    split
    · split
      · exact h
      next hrefuses =>
        have hkept := matchLevel_inv htrade (Bool.eq_false_iff.mpr hrefuses) h
        dsimp only
        split
        next hempty =>
          rw [hempty] at hkept
          exact matchLevels_inv htrade hdrop (hdrop hkept)
        · exact hkept
    · exact h

end

/-! ## 6. Runs -/

section
variable {P : Platform} {me : MatchingEngine}

/-- An order that is placed is new and has a price and an amount. -/
structure Order.Fresh (order : Order) : Prop where
  price : 0 < order.price
  amount : 0 < order.amount
  filled : order.filled = 0
  status : order.status = .opened

/-- The ID of an order is made from the order. -/
def Order.Identified (P : Platform) (order : Order) : Prop :=
  order.id =
    generateOrderID P order.owner order.pair order.side order.price order.amount order.blockNum

theorem positive_eq_ok {x : Option Int} {e : DexError} {y : Int} (h : positive x e = .ok y) :
    x = some y ∧ 0 < y := by
  unfold positive at h
  split at h
  · split at h
    · cases h
      exact ⟨rfl, ‹_›⟩
    · cases h
  · cases h

theorem placeOrder_eq_ok {owner : Address} {pair : TradingPair} {side : OrderSide}
    {price amount : Option Int} {timestamp blockNum : UInt64} {me' : MatchingEngine}
    (h : me.placeOrder P owner pair side price amount timestamp blockNum = .ok me') :
    ∃ order : Order, order.Fresh ∧ order.Identified P ∧ order.owner = owner ∧ order.pair = pair ∧
      order.side = side ∧ price = some order.price ∧ me' = me.enterOrder P order := by
  unfold MatchingEngine.placeOrder at h
  cases hprice : positive price .invalidPrice with
  | error e => rw [hprice] at h; cases h
  | ok p =>
    cases hamount : positive amount .invalidAmount with
    | error e => rw [hprice, hamount] at h; cases h
    | ok a =>
      rw [hprice, hamount] at h
      cases h
      obtain ⟨hsome, hpos⟩ := positive_eq_ok hprice
      refine ⟨_, ⟨hpos, (positive_eq_ok hamount).2, rfl, rfl⟩, ?_, rfl, rfl, rfl, hsome, rfl⟩
      exact rfl

theorem cancelOrder_eq_ok {id : Hash} {owner : Address} {me' : MatchingEngine} :
    ∀ {visit : List TradingPair},
    me.cancelOrder id owner visit = .ok me' → ∃ pair book r, me.books pair = some book ∧
      book.orderIndex id = some r ∧ (me.orders.get r).status ≠ .filled ∧
      me' = me.withdrawOrder id pair book r
  | [], h => by cases h
  | pair :: visit, h => by
    rw [MatchingEngine.cancelOrder] at h
    split at h
    · exact cancelOrder_eq_ok h
    next book hbook =>
      split at h
      · exact cancelOrder_eq_ok h
      next r hr =>
        unfold MatchingEngine.cancelInBook at h
        dsimp only at h
        split at h
        · cases h
        · split at h
          · cases h
          next hstatus =>
            cases h
            exact ⟨pair, book, r, hbook, hr, fun hfilled => hstatus (.inl hfilled), rfl⟩

variable {I : MatchingEngine → Prop}
  (henter : ∀ {me : MatchingEngine} {order : Order}, I me → order.Fresh → order.Identified P →
    I (me.enterOrder P order))
  (hwithdraw : ∀ {me : MatchingEngine} {id : Hash} {pair : TradingPair} {book : OrderBook}
    {r : OrderRef}, I me → me.books pair = some book → book.orderIndex id = some r →
    (me.orders.get r).status ≠ .filled → I (me.withdrawOrder id pair book r))
include henter hwithdraw

/-- **From one order to any sequence of calls.** -/
theorem afterCall_inv (h : I me) (c : Call) : I (me.afterCall P c) := by
  unfold MatchingEngine.afterCall
  split
  next me' hcall =>
    cases c with
    | placeOrder owner pair side price amount timestamp blockNum =>
      obtain ⟨order, hfresh, hid, -, -, -, -, rfl⟩ := placeOrder_eq_ok hcall
      exact henter h hfresh hid
    | cancelOrder id owner visit =>
      obtain ⟨pair, book, r, hbook, hr, hstatus, rfl⟩ := cancelOrder_eq_ok hcall
      exact hwithdraw h hbook hr hstatus
  · exact h

theorem afterCalls_inv (hnew : I {}) (calls : List Call) : I (MatchingEngine.afterCalls P calls) :=
  List.foldlRecOn calls _ hnew fun _ h c _ => afterCall_inv henter hwithdraw h c

end

end ProbeChain.Superlight
