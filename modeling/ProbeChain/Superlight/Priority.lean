/-
# Best price first, then first come first served

Orders are numbered as they are placed, so of two orders the earlier is the one with the smaller
number.  In every book the orders of a level stand in that order (`QueueInv`), and with the levels
sorted the whole side is one queue, in which each order precedes those behind it.

The two loops take this queue from the front: what has been traded with is a beginning of it, all of
it is filled but perhaps the last, and no trade is made before that holds (`Swept`).
`price_time_priority` says so of an order placed after any calls.
-/
import ProbeChain.Superlight.Fills

namespace ProbeChain.Superlight

open Option List MatchingEngine Superlight.Order PriceLevel

/-! ## 1. The queue of a side -/

/-- The orders of the levels, the best first. -/
def queueOf (levels : List PriceLevel) : List OrderRef := levels.flatMap orders

def OrderBook.queue (ob : OrderBook) (b : Bool) : List OrderRef := queueOf (ob.levels b)

/-- Among the bids (`b = true`) or the asks, the order `r` has the better price, or the same and was
placed earlier. -/
def Precedes (orders : Heap Order) (b : Bool) (r r' : OrderRef) : Prop :=
  (if b then (orders.get r').price < (orders.get r).price
    else (orders.get r).price < (orders.get r').price) ∨
    (orders.get r).price = (orders.get r').price ∧ r < r'

/-- The orders of each level stand in the order they were placed. -/
def Fifo (levels : List PriceLevel) : Prop := ∀ level ∈ levels, level.orders.Pairwise (· < ·)

variable {orders orders' : Heap Order} {pair : TradingPair} {b : Bool} {levels : List PriceLevel}
  {r r' : OrderRef}

theorem mem_queueOf : r ∈ queueOf levels ↔ ∃ level ∈ levels, r ∈ level.orders := mem_flatMap

theorem queueOf_cons (level : PriceLevel) :
    queueOf (level :: levels) = level.orders ++ queueOf levels :=
  flatMap_cons

theorem SideInv.resting_queue (h : SideInv orders pair b levels) (hr : r ∈ queueOf levels) :
    Resting orders pair b (orders.get r).price r := by
  obtain ⟨level, hlevel, hmem⟩ := mem_queueOf.mp hr
  have hresting := h.resting level hlevel r hmem
  rwa [hresting.price]

theorem precedes_of_less {x y : PriceLevel} (hx : (orders.get r).price = x.price)
    (hy : (orders.get r').price = y.price) (h : less b x y = true) : Precedes orders b r r' := by
  refine .inl ?_
  rw [hx, hy]
  cases b with
  | true => exact of_decide_eq_true h
  | false => exact of_decide_eq_true h

theorem Precedes.ne (h : Precedes orders b r r') : r ≠ r' := by
  rintro rfl
  rcases h with h | ⟨-, h⟩
  · split at h <;> exact lt_irrefl _ h
  · exact lt_irrefl _ h

theorem Precedes.asymm (h : Precedes orders b r r') : ¬ Precedes orders b r' r := by
  intro h'
  rcases h with h | ⟨hprice, hlt⟩
  · rcases h' with h' | ⟨hprice, -⟩
    · split at h
      · exact lt_asymm h (by rwa [if_pos ‹_›] at h')
      · exact lt_asymm h (by rwa [if_neg ‹_›] at h')
    · rw [hprice, ite_self] at h
      exact lt_irrefl _ h
  · rcases h' with h' | ⟨-, hlt'⟩
    · rw [hprice, ite_self] at h'
      exact lt_irrefl _ h'
    · exact lt_asymm hlt hlt'

/-- **A side of a book is one queue.** -/
theorem SideInv.pairwise_queue (h : SideInv orders pair b levels) (hfifo : Fifo levels) :
    (queueOf levels).Pairwise (Precedes orders b) := by
  refine pairwise_flatMap.mpr ⟨fun level hlevel => ?_, ?_⟩
  · refine (hfifo level hlevel).imp_of_mem fun {r r'} hr hr' hlt => .inr ⟨?_, hlt⟩
    exact (h.resting level hlevel r hr).price.trans (h.resting level hlevel r' hr').price.symm
  · refine h.sorted.imp_of_mem fun {x y} hx hy hless r hr r' hr' => ?_
    exact precedes_of_less (h.resting x hx r hr).price (h.resting y hy r' hr').price hless

/-- An order that precedes one in the queue stands before it. -/
theorem mem_of_precedes {before after : List OrderRef}
    (h : (before ++ r' :: after).Pairwise (Precedes orders b)) (hr : r ∈ before ++ r' :: after)
    (hprecedes : Precedes orders b r r') : r ∈ before := by
  rcases mem_append.mp hr with hr | hr
  · exact hr
  · have hbehind := (pairwise_cons.mp (pairwise_append.mp h).2.1).1
    rcases mem_cons.mp hr with rfl | hr
    · exact absurd rfl hprecedes.ne
    · exact absurd (hbehind r hr) hprecedes.asymm

/-! ## 2. The loops take it from the front -/

/-- What the loops have done, when `pending` is left of the queue. -/
structure Swept (start : Heap Order) (taker : OrderRef) (queue pending : List OrderRef)
    (m : Matching) : Prop where
  counted : ∀ r ≠ taker, (m.orders.get r).remaining + filledBy m.fills r = (start.get r).remaining
  made : ∀ f ∈ m.fills, f.taker = taker
  accepted : ∀ f ∈ m.fills, (start.get taker).refuses (start.get f.maker).price = false
  ordered : m.fills.map Fill.maker <+: queue
  first : ∀ before f after, m.fills = before ++ f :: after →
    ∃ done rest, queue = done ++ f.maker :: rest ∧
    ∀ r ∈ done, filledBy before r = (start.get r).remaining
  taken : ∃ done, queue = done ++ pending ∧ (∀ r ∈ done, (m.orders.get r).remaining = 0) ∧
    (0 < (m.orders.get taker).remaining → m.fills.map Fill.maker = done)

variable {P : Platform} {start : Heap Order} {taker : OrderRef} {timestamp blockNum : UInt64}
  {allowed : Int → Prop}
  {queue pending : List OrderRef} {m : Matching} {price : Int} {maker : OrderRef}

variable (P timestamp blockNum price) in
/-- **One trade**, with the first order that is left. -/
theorem Swept.trade (h : Swept start taker queue (maker :: pending) m) (hnodup : queue.Nodup)
    (hqueue : taker ∉ queue) (hpos : 0 < (m.orders.get taker).remaining)
    (haccepts : (start.get taker).refuses (start.get maker).price = false) :
    let m' := trade P taker timestamp blockNum price maker m
    Swept start taker queue (if (m'.orders.get maker).isFilled then pending
      else maker :: pending) m' := by
  intro m'
  obtain ⟨t, hfills, -, hamount⟩ := trade_fills P taker timestamp blockNum price maker m
  obtain ⟨done, hdone, hempty, hmakers⟩ := h.taken
  have hmakerMem : maker ∈ queue := by simp [hdone]
  have hne : maker ≠ taker := ne_of_mem_of_not_mem hmakerMem hqueue
  have hnotDone : maker ∉ done := by
    intro hmem
    rw [hdone] at hnodup
    exact (nodup_append.mp hnodup).2.2 maker hmem maker mem_cons_self rfl
  have hfront : m'.fills.map Fill.maker = done ++ [maker] := by
    rw [hfills, map_append, hmakers hpos, map_singleton]
  have hkept : ∀ r ∈ done, (m'.orders.get r).remaining = 0 := by
    intro r hr
    have hrt : r ≠ taker := ne_of_mem_of_not_mem (by simp [hdone, hr]) hqueue
    rw [trade_get_of_ne (ne_of_mem_of_not_mem hr hnotDone) hrt]
    exact hempty r hr
  refine ⟨fun r hrt => ?_, ?_, ?_, ?_, ?_, ?_⟩
  · rw [hfills, filledBy_append, filledBy_singleton, ← h.counted r hrt]
    by_cases hrm : r = maker
    · rw [hrm, trade_get_maker hne, remaining_setStatus, remaining_addFilled,
        amountOf_maker (f := ⟨t, maker, taker⟩) hne, hamount]
      omega
    · rw [trade_get_of_ne hrm hrt, amountOf_of_ne hrm hrt, add_zero]
  · rw [hfills]
    exact forall_mem_append.mpr ⟨h.made, forall_mem_singleton.mpr rfl⟩
  · rw [hfills]
    exact forall_mem_append.mpr ⟨h.accepted, forall_mem_singleton.mpr haccepts⟩
  · rw [hfront, hdone]
    exact ⟨pending, by simp⟩
  · intro before f after hsplit
    rw [hfills] at hsplit
    rcases eq_nil_or_concat after with rfl | ⟨after', last, rfl⟩
    · -- the new trade: everything before its maker has been filled by now
      obtain ⟨rfl, hf⟩ := append_inj' hsplit rfl
      obtain rfl := singleton_inj.mp hf
      refine ⟨done, pending, hdone, fun r hr => ?_⟩
      have hcounted := h.counted r (ne_of_mem_of_not_mem (by simp [hdone, hr]) hqueue)
      rwa [hempty r hr, zero_add] at hcounted
    · rw [concat_eq_append, ← cons_append, ← append_assoc] at hsplit
      exact h.first before f after' (append_inj' hsplit rfl).1
  · by_cases hfilled : (m'.orders.get maker).isFilled
    · rw [if_pos hfilled]
      refine ⟨done ++ [maker], by simp [hdone], ?_, fun _ => hfront⟩
      refine forall_mem_append.mpr ⟨hkept, forall_mem_singleton.mpr ?_⟩
      have hle := (isFilled_trade hne).mp hfilled
      rw [trade_get_maker hne, remaining_setStatus, remaining_addFilled]
      exact (fillAmount_eq_maker_iff _ _).mpr hle
    · rw [if_neg hfilled]
      refine ⟨done, hdone, hkept, fun hleft => ?_⟩
      exact absurd (remaining_trade hfilled hpos) hleft.ne'

/-- **Both loops.** -/
theorem swept_matchLevels (htaker : (start.get taker).buys = !b) (hnodup : queue.Nodup)
    (hqueue : taker ∉ queue) (hclearing : Clearing start taker pair b allowed levels m)
    (h : Swept start taker queue (queueOf levels) m) :
    Swept start taker queue (queueOf (matchLevels P taker timestamp blockNum levels m).1)
      (matchLevels P taker timestamp blockNum levels m).2 := by
  refine (matchLevels_inv (P := P)
    (Q := fun levels m => Clearing start taker pair b allowed levels m ∧
    Swept start taker queue (queueOf levels) m) ?_ ?_ ⟨hclearing, h⟩).2
  · rintro price maker orders rest m ⟨hclearing, h⟩ hpos haccepts
    refine ⟨Clearing.trade htaker hclearing hpos haccepts, ?_⟩
    have hmaker := hclearing.side.resting _ mem_cons_self maker mem_cons_self
    have hprice : (start.get maker).price = price :=
      (congrArg (·.2.2.1) (hclearing.terms maker)).symm.trans hmaker.price
    have hstart : (start.get taker).refuses (start.get maker).price = false := by
      rwa [hprice, ← refuses_congr (hclearing.terms taker)]
    have hswept := Swept.trade P timestamp blockNum price h hnodup hqueue hpos hstart
    rw [queueOf_cons]
    dsimp only at hswept ⊢
    split
    next hfilled =>
      rwa [if_pos hfilled] at hswept
    next hfilled =>
      rwa [if_neg hfilled] at hswept
  · rintro price rest m ⟨hclearing, h⟩
    exact ⟨hclearing.drop, h⟩

/-! ## 3. The queue along a run -/

theorem fifo_matchLevels
    (h : Fifo levels) : Fifo (matchLevels P taker timestamp blockNum levels m).1 := by
  refine matchLevels_inv (Q := fun levels _ => Fifo levels) ?_ ?_ h
  · intro price maker orders rest m h _ _ m'
    obtain ⟨hlevel, hrest⟩ := forall_mem_cons.mp h
    refine forall_mem_cons.mpr ⟨?_, hrest⟩
    dsimp only
    split
    · exact (pairwise_cons.mp hlevel).2
    · exact hlevel
  · intro price rest m h
    exact (forall_mem_cons.mp h).2

theorem fifo_addToLevels (S : LevelSort) (less : PriceLevel → PriceLevel → Bool) (price : Int)
    (h : Fifo levels) (hnew : ∀ r' ∈ queueOf levels, r' < r) :
    Fifo (addToLevels S less r price levels) := by
  unfold addToLevels
  split
  next hjoin =>
    obtain ⟨before, level, after, rfl, -, rfl⟩ := joinLevel_eq_some hjoin
    have hlevel : level ∈ before ++ level :: after := mem_append_right _ mem_cons_self
    intro x hx
    rcases mem_replace hx with rfl | hx
    · refine pairwise_append.mpr ⟨h level hlevel, pairwise_singleton _ _, fun r' hr' x hx => ?_⟩
      rw [mem_singleton.mp hx]
      exact hnew r' (mem_queueOf.mpr ⟨level, hlevel, hr'⟩)
    · exact h x hx
  · intro level hlevel
    rcases mem_append.mp ((S.perm _ _).mem_iff.mp hlevel) with hlevel | hlevel
    · exact h level hlevel
    · rw [mem_singleton.mp hlevel]
      exact pairwise_singleton _ _

theorem fifo_removeFromLevels (orders : Heap Order) (id : Hash) (price : Int) (h : Fifo levels) :
    Fifo (removeFromLevels orders id price levels) := by
  rcases removeFromLevels_cases orders id price levels with
    heq | ⟨before, level, after, rfl, heq | ⟨queue, -, hsub, heq⟩⟩
  · rwa [heq]
  · rw [heq]
    exact fun x hx => h x (((sublist_cons_self level after).append_left before).subset hx)
  · rw [heq]
    intro x hx
    rcases mem_replace hx with rfl | hx
    · exact (h level (mem_append_right _ mem_cons_self)).sublist hsub
    · exact h x hx

/-- Every side of every book is a queue. -/
structure QueueInv (me : MatchingEngine) : Prop where
  books : EngineInv me
  fifo : ∀ pair book, me.books pair = some book → ∀ b, Fifo (book.levels b)

variable {me : MatchingEngine} {order : Order}

theorem QueueInv.getOrCreateBook (h : QueueInv me) (pair : TradingPair) (b : Bool) :
    Fifo ((me.getOrCreateBook pair).levels b) := by
  unfold MatchingEngine.getOrCreateBook
  cases hbook : me.books pair with
  | none => cases b <;> simp [Fifo, OrderBook.levels]
  | some book => exact h.fifo pair book hbook b

theorem QueueInv.pairwise_queue (h : QueueInv me) (pair : TradingPair) (b : Bool) :
    ((me.getOrCreateBook pair).queue b).Pairwise (Precedes me.orders b) :=
  ((h.books.getOrCreateBook pair).side b).pairwise_queue (h.getOrCreateBook pair b)

theorem QueueInv.nodup_queue (h : QueueInv me) (pair : TradingPair) (b : Bool) :
    ((me.getOrCreateBook pair).queue b).Nodup := (h.pairwise_queue pair b).imp Precedes.ne

theorem EngineInv.resting_queue (h : EngineInv me)
    (hr : r ∈ (me.getOrCreateBook pair).queue b) :
    Resting me.orders pair b (me.orders.get r).price r :=
  ((h.getOrCreateBook pair).side b).resting_queue hr

theorem EngineInv.queue_lt (h : EngineInv me)
    (hr : r ∈ (me.getOrCreateBook pair).queue b) : r < me.orders.size :=
  (h.resting_queue hr).placed

/-- The book after the loops and before the order rests in it. -/
theorem QueueInv.matched (h : QueueInv me) (hbuys : order.buys = !b) (c : Bool) :
    Fifo ((me.matched P order).1.levels c) := by
  obtain ⟨hlevels, hother, -⟩ := matched_levels P me hbuys
  by_cases hc : c = b
  · rw [hc, hlevels]
    exact fifo_matchLevels (h.getOrCreateBook order.pair b)
  · rw [Bool.eq_not.mpr hc, hother]
    exact h.getOrCreateBook order.pair !b

/-- The side of the order itself, after it has been matched. -/
theorem matched_buys (h : EngineInv me) (hfresh : order.Fresh) (hbuys : order.buys = !b) :
    ((me.matched P order).2.orders.get me.orders.size).buys = !b := by
  have hterms := (h.clearing (P := P) hbuys hfresh).terms me.orders.size
  rw [Heap.get_alloc_self] at hterms
  rw [buys_congr hterms, hbuys]

/-- The levels of the pair after the order has been placed. -/
theorem levels_enterOrder (h : EngineInv me) (hfresh : order.Fresh) (hbuys : order.buys = !b) :
    ∃ book, (me.enterOrder P order).books order.pair = some book ∧
      book.levels b = (me.matched P order).1.levels b ∧
      (book.levels (!b) = (me.matched P order).1.levels (!b) ∨ ∃ price, book.levels (!b) =
        addToLevels P.levelSort (less !b) me.orders.size price
          ((me.matched P order).1.levels !b)) := by
  refine ⟨_, books_enterOrder_self order, ?_⟩
  rw [restOrder_book]
  split
  · obtain ⟨-, hstanding⟩ :=
      standing_restOrder P.levelSort me.orders.size (me.matched P order).1
        (me.matched P order).2.orders
    have hside := buys_congr (congrArg (·.1) (hstanding me.orders.size))
    obtain ⟨hsame, hother⟩ := levels_addOrder (me.matched P order).1 P.levelSort me.orders.size
      (hside.trans (matched_buys h hfresh hbuys))
    rw [Bool.not_not] at hother
    exact ⟨hother, .inr ⟨_, hsame⟩⟩
  · exact ⟨rfl, .inl rfl⟩

/-- **A new order.** -/
theorem QueueInv.enterOrder (h : QueueInv me) (hfresh : order.Fresh) :
    QueueInv (me.enterOrder P order) := by
  refine ⟨h.books.enterOrder hfresh, fun pair book hbook c => ?_⟩
  by_cases hpair : pair = order.pair
  · subst hpair
    obtain ⟨b, hbuys⟩ : ∃ b, order.buys = !b := ⟨!order.buys, (Bool.not_not _).symm⟩
    obtain ⟨book', hbook', hmatched, hadded⟩ := levels_enterOrder (P := P) h.books hfresh hbuys
    obtain rfl := some.inj (hbook'.symm.trans hbook)
    by_cases hc : c = b
    · rw [hc, hmatched]
      exact h.matched hbuys b
    · rw [Bool.eq_not.mpr hc]
      rcases hadded with hadded | ⟨price, hadded⟩
      · rw [hadded]
        exact h.matched hbuys !b
      · rw [hadded]
        refine fifo_addToLevels _ _ _ (h.matched hbuys !b) fun r hr => ?_
        rw [(matched_levels P me hbuys).2.1] at hr
        exact h.books.queue_lt hr
  · rw [books_enterOrder_of_ne order hpair] at hbook
    exact h.fifo pair book hbook c

/-- **An order is cancelled.** -/
theorem QueueInv.withdrawOrder {id : Hash} {book : OrderBook} (h : QueueInv me)
    (hbook : me.books pair = some book) : QueueInv (me.withdrawOrder id pair book r) := by
  refine ⟨h.books.withdrawOrder hbook, fun pair' book' hbook' b => ?_⟩
  obtain ⟨rfl, rfl⟩ | ⟨-, hbook'⟩ := books_withdrawOrder_eq_some hbook'
  · have hkept := h.fifo pair' book hbook b
    rcases levels_removeOrder_cases book
      (me.withdrawOrder id pair' book r).orders id b with heq | ⟨_, _, heq⟩
    · rwa [heq]
    · rw [heq]
      exact fifo_removeFromLevels _ _ _ hkept
  · exact h.fifo pair' book' hbook' b

variable (P) in
/-- **Any calls.** -/
theorem queueInv_afterCalls (calls : List Call) : QueueInv (afterCalls P calls) := by
  refine afterCalls_inv (fun h hfresh _ => h.enterOrder hfresh) ?_ ⟨?_, ?_⟩ calls
  · exact fun h hbook _ _ => h.withdrawOrder hbook
  · exact fun _ _ hnone => absurd hnone (some_ne_none _).symm
  · exact fun _ _ hnone => absurd hnone (some_ne_none _).symm

/-! ## 4. Price-time priority -/

/-- The side an order is matched against: whatever is not a purchase is matched against the bids. -/
def oppositeSide (side : OrderSide) : Bool := side ≠ orderSideBuy

/-- An order of a named side with the limit can trade at the price. -/
def Acceptable (side : OrderSide) (limit price : Int) : Prop :=
  if side = orderSideBuy then price ≤ limit else limit ≤ price

/-- The order `r` rests on the opposite side, at an acceptable price. -/
def MatchingEngine.Compatible (me : MatchingEngine) (pair : TradingPair) (side : OrderSide)
    (limit : Int) (r : OrderRef) : Prop :=
  r ∈ (me.getOrCreateBook pair).queue (oppositeSide side) ∧
    Acceptable side limit (me.orders.get r).price

/-- The trades that an order makes when it is placed, which takes the engine from `me` to `me'`.
The order is the next object, `me.orders.size`. -/
structure PriceTime (me me' : MatchingEngine) (pair : TradingPair) (side : OrderSide) (limit : Int)
    (trades : List Fill) : Prop where
  made : ∀ f ∈ trades, f.taker = me.orders.size
  compatible : ∀ f ∈ trades, me.Compatible pair side limit f.maker
  ordered : (trades.map Fill.maker).Pairwise (Precedes me.orders (oppositeSide side))
  -- whoever comes first has been filled by the trades before
  first : ∀ before f after, trades = before ++ f :: after → ∀ r, me.Compatible pair side limit r →
    Precedes me.orders (oppositeSide side) r f.maker →
    filledBy before r = (me.orders.get r).remaining
  exhausted : (me'.orders.get me.orders.size).remaining = 0 ∨
    (∀ r, ¬ me'.Compatible pair side limit r) ∧
      ∀ r, me.Compatible pair side limit r → (me'.orders.get r).remaining = 0

theorem buys_eq_not_oppositeSide (order : Order) : order.buys = !oppositeSide order.side := by
  simp [buys, oppositeSide]

/-- The price test is the right one for the two sides with a name. -/
theorem refuses_eq_false_iff (hside : order.side = orderSideBuy ∨ order.side = orderSideSell)
    (price : Int) :
    order.refuses price = false ↔ Acceptable order.side order.price price := by
  rw [refuses, decide_eq_false_iff_not, Acceptable]
  rcases hside with hside | hside
  · simp [hside, orderSideBuy, orderSideSell]
  · simp [hside, orderSideBuy, orderSideSell]

theorem not_acceptable_of_less {level : PriceLevel}
    (h : less (oppositeSide order.side) ⟨order.price, []⟩ level = true) :
    ¬ Acceptable order.side order.price level.price := by
  unfold Acceptable
  split
  next hside =>
    simp only [oppositeSide, hside, ne_eq, not_true_eq_false, decide_false] at h
    exact not_le_of_gt (of_decide_eq_true h)
  next hside =>
    simp only [oppositeSide, hside, ne_eq, not_false_eq_true, decide_true] at h
    exact not_le_of_gt (of_decide_eq_true h)

/-- The loops of a new order. -/
theorem QueueInv.swept (h : QueueInv me) (hfresh : order.Fresh) (hbuys : order.buys = !b) :
    Swept (me.orders.alloc order) me.orders.size ((me.getOrCreateBook order.pair).queue b)
      ((me.matched P order).1.queue b) (me.matched P order).2 := by
  obtain ⟨hlevels, -, hmatching⟩ := matched_levels P me hbuys
  rw [OrderBook.queue, OrderBook.queue, hlevels, hmatching]
  refine swept_matchLevels ?_ ?_ ?_ (h.books.clearing_start hfresh) ?_
  · rwa [Heap.get_alloc_self]
  · exact h.nodup_queue order.pair b
  · exact fun hmem => lt_irrefl _ (h.books.queue_lt hmem)
  · refine ⟨fun r _ =>
      add_zero _, by simp, by simp, by simp, by simp, [], rfl, by simp, fun _ => rfl⟩

/-- When the loops end with something left of the order, nothing of the other side is acceptable. -/
theorem EngineInv.not_acceptable (h : EngineInv me) (hfresh : order.Fresh)
    (hleft : 0 < ((me.matched P order).2.orders.get me.orders.size).remaining) :
    ∀ r ∈ (me.matched P order).1.queue (oppositeSide order.side),
      ¬ Acceptable order.side order.price ((me.matched P order).2.orders.get r).price := by
  have hbuys := buys_eq_not_oppositeSide order
  have hclearing := h.clearing (P := P) hbuys hfresh
  have hterms := hclearing.terms me.orders.size
  rw [Heap.get_alloc_self] at hterms
  obtain ⟨hlevels, -, hmatching⟩ := matched_levels P me hbuys
  intro r hr
  obtain ⟨level, hlevel, hmem⟩ := mem_queueOf.mp hr
  rw [(hclearing.side.resting level hlevel r hmem).price]
  -- the loops have stopped at the first level, and the others are further away
  refine not_acceptable_of_less (less_of_head hclearing.side.sorted ?_ level hlevel)
  rw [hlevels]
  rw [hmatching] at hleft
  intro level hlevel
  have hexit := (matchLevels_exit P me.orders.size order.timestamp order.blockNum _ _).resolve_left
    (not_le_of_gt hleft) level hlevel
  rw [← hmatching, refuses_congr hterms] at hexit
  exact less_of_refuses hbuys hexit

variable (P) in
/-- The terms of the orders there were are the same, and what is left of an order is decided in the
loops. -/
theorem EngineInv.enterOrder_get (h : EngineInv me) (hfresh : order.Fresh) (r : OrderRef) :
    ((me.enterOrder P order).orders.get r).terms = ((me.orders.alloc order).get r).terms ∧
      ((me.enterOrder P order).orders.get r).remaining =
        ((me.matched P order).2.orders.get r).remaining := by
  obtain ⟨-, hstanding⟩ :=
    standing_restOrder P.levelSort me.orders.size (me.matched P order).1
      (me.matched P order).2.orders
  refine ⟨(congrArg (·.1) (hstanding r)).trans ?_, remaining_congr (hstanding r)⟩
  exact (h.clearing (P := P) (buys_eq_not_oppositeSide order) hfresh).terms r

/-- **A new order.** -/
theorem QueueInv.priceTime (h : QueueInv me) (hfresh : order.Fresh)
    (hside : order.side = orderSideBuy ∨ order.side = orderSideSell) :
    PriceTime me (me.enterOrder P order) order.pair order.side order.price
      (me.matched P order).2.fills := by
  have hbuys := buys_eq_not_oppositeSide order
  have hqueue := h.pairwise_queue order.pair (oppositeSide order.side)
  have hswept := h.swept (P := P) hfresh hbuys
  have hold {r : OrderRef}
      (hr : r ∈ (me.getOrCreateBook order.pair).queue (oppositeSide order.side)) :
      (me.orders.alloc order).get r = me.orders.get r :=
        Heap.get_alloc_of_lt _ _ (h.books.queue_lt hr)
  refine ⟨hswept.made, fun f hf => ?_, hqueue.sublist hswept.ordered.sublist, ?_, ?_⟩
  · have hmem := hswept.ordered.subset (mem_map_of_mem hf)
    refine ⟨hmem, ?_⟩
    have haccepted := hswept.accepted f hf
    rw [Heap.get_alloc_self, hold hmem] at haccepted
    exact (refuses_eq_false_iff hside _).mp haccepted
  · intro before f after hsplit r hr hprecedes
    obtain ⟨done, rest, heq, hdone⟩ := hswept.first before f after hsplit
    have hmem := hr.1
    rw [heq] at hmem hqueue
    rw [hdone r (mem_of_precedes hqueue hmem hprecedes), hold hr.1]
  · have hnonneg := (h.books.clearing (P := P) hbuys hfresh).left
    rw [(h.books.enterOrder_get P hfresh me.orders.size).2]
    rcases hnonneg.eq_or_lt with hzero | hleft
    · exact .inl hzero.symm
    have hbeyond := h.books.not_acceptable hfresh hleft
    have hprice (r : OrderRef) : ((me.enterOrder P order).orders.get r).price =
        ((me.matched P order).2.orders.get r).price := by
      have hterms := (h.books.clearing (P := P) hbuys hfresh).terms r
      exact congrArg (·.2.2.1) ((h.books.enterOrder_get P hfresh r).1.trans hterms.symm)
    obtain ⟨book, hbook, hlevels, -⟩ := levels_enterOrder (P := P) h.books hfresh hbuys
    refine .inr ⟨fun r hr => ?_, fun r hr => ?_⟩
    · obtain ⟨hmem, hacceptable⟩ := hr
      rw [MatchingEngine.getOrCreateBook, hbook, getD_some, OrderBook.queue, hlevels] at hmem
      rw [hprice] at hacceptable
      exact hbeyond r hmem hacceptable
    · obtain ⟨done, heq, hempty, -⟩ := hswept.taken
      rw [(h.books.enterOrder_get P hfresh r).2]
      have hmem := hr.1
      rw [heq] at hmem
      refine hempty r ((mem_append.mp hmem).resolve_right fun hpending => hbeyond r hpending ?_)
      have hsame : ((me.enterOrder P order).orders.get r).price = (me.orders.get r).price := by
        rw [← hold hr.1]
        exact congrArg (·.2.2.1) (h.books.enterOrder_get P hfresh r).1
      rw [← hprice, hsame]
      exact hr.2

/-- **Price-time priority.**  A purchase or a sale that is placed after any calls trades with the
compatible orders of the opposite side in the order of their precedence, with none before those that
precede it are filled, and stops only when it is filled or no compatible order is left. -/
theorem price_time_priority (P : Platform) (calls : List Call) (owner : Address)
    (pair : TradingPair) (side : OrderSide) (price : Int) (amount : Option Int)
    (timestamp blockNum : UInt64) (me' : MatchingEngine)
    (hside : side = orderSideBuy ∨ side = orderSideSell)
    (hplace : (afterCalls P calls).placeOrder P owner pair side
      (some price) amount timestamp blockNum =
      .ok me') :
    ∃ trades, me'.fills = (afterCalls P calls).fills ++ trades ∧
      PriceTime (afterCalls P calls) me' pair side price trades := by
  obtain ⟨order, hfresh, -, -, rfl, rfl, hprice, rfl⟩ := placeOrder_eq_ok hplace
  obtain rfl := some.inj hprice
  exact ⟨_, rfl, (queueInv_afterCalls P calls).priceTime hfresh hside⟩

/-- Three bids, of which the second is the best and the third comes after the first. -/
def threeBids : List Call :=
  [.placeOrder 7 ⟨1, 2⟩ orderSideBuy (some 5) (some 2) 0 0,
    .placeOrder 8 ⟨1, 2⟩ orderSideBuy (some 6) (some 1) 0 0,
    .placeOrder 9 ⟨1, 2⟩ orderSideBuy (some 5) (some 4) 0 0]

theorem price_time_priority_threeBids : ∃ me' trades,
    (afterCalls plainPlatform threeBids).placeOrder plainPlatform 3 ⟨1, 2⟩ orderSideSell
      (some 5) (some 5)
      0 0 = .ok me' ∧
    trades.map (fun f => (f.maker, f.trade.amount)) = [(1, 1), (0, 2), (2, 2)] ∧
    PriceTime (afterCalls plainPlatform threeBids) me' ⟨1, 2⟩ orderSideSell 5 trades := by
  have hfills :
      ((afterCalls plainPlatform threeBids).placeOrder plainPlatform 3 ⟨1, 2⟩ orderSideSell
      (some 5) (some 5) 0 0).toOption.map
        (fun me' => me'.fills.map fun f => (f.maker, f.trade.amount)) =
      some [(1, 1), (0, 2), (2, 2)] := by decide +kernel
  have hnone : (afterCalls plainPlatform threeBids).fills = [] := by decide +kernel
  obtain ⟨me', hplace⟩ : ∃ me',
      (afterCalls plainPlatform threeBids).placeOrder plainPlatform 3 ⟨1, 2⟩
      orderSideSell (some 5) (some 5) 0 0 = .ok me' := ⟨_, rfl⟩
  rw [hplace] at hfills
  obtain ⟨trades, hnew, hpriority⟩ :=
    price_time_priority plainPlatform threeBids 3 ⟨1, 2⟩ orderSideSell 5 (some 5) 0 0
    me' (.inr rfl) hplace
  rw [hnone, nil_append] at hnew
  refine ⟨me', trades, hplace, ?_, hpriority⟩
  rw [← hnew]
  exact some.inj hfills

end ProbeChain.Superlight
