/-
# What has been filled is what has been traded

The engine keeps an append-only log of trades, and every order a counter of what has been filled of
it and a status.  `fills_conserved` says that they agree for every order object there has ever been,
whether it rests, is filled, was cancelled or has been taken out of the book under the ID of
another.

An order can leave the book in the place of another with the same ID.  Then it is the OTHER that
gets the status `cancelled`, and goes on resting; a trade sets its status again.
-/
import ProbeChain.Superlight.Book

namespace ProbeChain.Superlight

open List Superlight.Order

/-! ## 1. The trades of an order -/

/-- What the trade fills of the order `r`. -/
def Fill.amountOf (r : OrderRef) (f : Fill) : Int :=
  (if f.maker = r then f.trade.amount else 0) + if f.taker = r then f.trade.amount else 0

/-- What the trades fill of the order `r`. -/
def filledBy (fills : List Fill) (r : OrderRef) : Int := (fills.map (Fill.amountOf r)).sum

variable {fills fills' : List Fill} {f : Fill} {r : OrderRef}

theorem amountOf_maker (hne : f.maker ≠ f.taker) : f.amountOf f.maker = f.trade.amount := by
  rw [Fill.amountOf, if_pos rfl, if_neg hne.symm, add_zero]

theorem amountOf_taker (hne : f.maker ≠ f.taker) : f.amountOf f.taker = f.trade.amount := by
  rw [Fill.amountOf, if_neg hne, if_pos rfl, zero_add]

theorem amountOf_of_ne (hmaker : r ≠ f.maker) (htaker : r ≠ f.taker) : f.amountOf r = 0 := by
  rw [Fill.amountOf, if_neg hmaker.symm, if_neg htaker.symm, add_zero]

theorem filledBy_append : filledBy (fills ++ fills') r = filledBy fills r + filledBy fills' r := by
  rw [filledBy, map_append, sum_append]
  rfl

theorem filledBy_singleton : filledBy [f] r = f.amountOf r := sum_singleton

/-- An order that has not traded. -/
theorem filledBy_eq_zero (h : ∀ f ∈ fills, r ≠ f.maker ∧ r ≠ f.taker) : filledBy fills r = 0 := by
  induction fills with
  | nil => rfl
  | cons f fills ih =>
    obtain ⟨hf, hrest⟩ := forall_mem_cons.mp h
    rw [filledBy, map_cons, sum_cons, amountOf_of_ne hf.1 hf.2, zero_add]
    exact ih hrest

/-- The trade is between two orders there are, and not empty. -/
structure Fill.Proper (orders : Heap Order) (f : Fill) : Prop where
  maker : f.maker < orders.size
  taker : f.taker < orders.size
  amount : 0 < f.trade.amount

theorem Fill.Proper.mono {orders orders' : Heap Order} (h : f.Proper orders)
    (hsize : orders.size ≤ orders'.size) : f.Proper orders' :=
  ⟨h.maker.trans_le hsize, h.taker.trans_le hsize, h.amount⟩

/-! ## 2. Matching -/

/-- What the loops keep.  The new order `taker` has its status set after them. -/
structure Filling (before : List Fill) (taker : OrderRef) (m : Matching) : Prop where
  counted : ∀ r < m.orders.size, (m.orders.get r).filled = filledBy before r + filledBy m.fills r
  left : ∀ r < m.orders.size, 0 ≤ (m.orders.get r).remaining
  status : ∀ r < m.orders.size, r ≠ taker →
    ((m.orders.get r).status = .filled ↔ (m.orders.get r).remaining = 0)
  opened : (m.orders.get taker).status = .opened
  proper : ∀ f ∈ m.fills, f.Proper m.orders

variable {P : Platform} {start : Heap Order} {taker : OrderRef} {timestamp blockNum : UInt64}
  {pair : TradingPair}
  {b : Bool} {allowed : Int → Prop} {before : List Fill}

/-- **One trade.** -/
theorem Filling.trade {m : Matching} {price : Int} {maker : OrderRef} (h : Filling before taker m)
    (hne : maker ≠ taker) (hmaker : maker < m.orders.size) (htaker : taker < m.orders.size)
    (hpos : 0 < (m.orders.get taker).remaining) (hleft : 0 < (m.orders.get maker).remaining) :
    Filling before taker (trade P taker timestamp blockNum price maker m) := by
  obtain ⟨t, hfills, -, hamount⟩ := trade_fills P taker timestamp blockNum price maker m
  obtain ⟨htakerLeft, hmakerLeft⟩ := fillAmount_le (m.orders.get taker) (m.orders.get maker)
  rw [← hamount] at htakerLeft hmakerLeft
  have hfilled (r : OrderRef) :
      ((Superlight.trade P taker timestamp blockNum price maker m).orders.get r).filled =
      (m.orders.get r).filled + Fill.amountOf r ⟨t, maker, taker⟩ := by
    by_cases hrm : r = maker
    · rw [hrm, trade_get_maker hne, amountOf_maker (f := ⟨t, maker, taker⟩) hne, hamount]
      rfl
    by_cases hrt : r = taker
    · rw [hrt, trade_get_taker hne.symm, amountOf_taker (f := ⟨t, maker, taker⟩) hne, hamount]
      rfl
    · rw [trade_get_of_ne hrm hrt, amountOf_of_ne hrm hrt, add_zero]
  refine ⟨fun r hr => ?_, fun r hr => ?_, fun r hr hrt => ?_, ?_, ?_⟩
  · rw [hfilled, h.counted r hr, hfills, filledBy_append, filledBy_singleton, add_assoc]
  · by_cases hrm : r = maker
    · rw [hrm, trade_get_maker hne, remaining_setStatus, remaining_addFilled, ← hamount]
      exact sub_nonneg.mpr hmakerLeft
    by_cases hrt : r = taker
    · rw [hrt, trade_get_taker hne.symm, remaining_addFilled, ← hamount]
      exact sub_nonneg.mpr htakerLeft
    · rw [trade_get_of_ne hrm hrt]
      exact h.left r hr
  · by_cases hrm : r = maker
    · rw [hrm, trade_get_maker hne, remaining_setStatus, remaining_addFilled,
        fillAmount_eq_maker_iff]
      simp [setStatus]
    · rw [trade_get_of_ne hrm hrt]
      exact h.status r hr hrt
  · rw [trade_get_taker hne.symm]
    exact h.opened
  · rw [hfills]
    intro f hf
    rcases mem_append.mp hf with hf | hf
    · exact (h.proper f hf).mono le_rfl
    · rw [mem_singleton.mp hf]
      refine ⟨hmaker, htaker, ?_⟩
      rw [hamount]
      exact fillAmount_pos hpos hleft

/-- **Both loops.** -/
theorem filling_matchLevels {levels : List PriceLevel} {m : Matching}
    (htaker : (start.get taker).buys = !b) (hplaced : taker < start.size)
    (hclearing : Clearing start taker pair b allowed levels m) (h : Filling before taker m) :
    Filling before taker (matchLevels P taker timestamp blockNum levels m).2 := by
  refine (matchLevels_inv (P := P)
    (Q := fun levels m => Clearing start taker pair b allowed levels m ∧
    Filling before taker m) ?_ ?_ ⟨hclearing, h⟩).2
  · rintro price maker orders rest m ⟨hclearing, h⟩ hpos haccepts
    have hmaker := hclearing.side.resting _ mem_cons_self maker mem_cons_self
    have hne := hclearing.ne_taker htaker hmaker
    refine ⟨Clearing.trade htaker hclearing hpos haccepts, ?_⟩
    exact h.trade hne hmaker.placed (hplaced.trans_eq hclearing.size.symm) hpos hmaker.left
  · rintro price rest m ⟨hclearing, h⟩
    exact ⟨hclearing.drop, h⟩

/-! ## 3. The engine -/

/-- The counters and the statuses are right. -/
structure Conserved (me : MatchingEngine) : Prop where
  books : EngineInv me
  counted : ∀ r < me.orders.size, (me.orders.get r).filled = filledBy me.fills r
  left : ∀ r < me.orders.size, 0 ≤ (me.orders.get r).remaining
  status : ∀ r < me.orders.size, (me.orders.get r).status = .filled ↔
    (me.orders.get r).remaining = 0
  proper : ∀ f ∈ me.fills, f.Proper me.orders

theorem restOrder_get_of_ne (S : LevelSort) (book : OrderBook) (orders : Heap Order)
    (hr : r ≠ taker) : (restOrder S taker book orders).2.get r = orders.get r := by
  unfold restOrder
  dsimp only
  split
  · split
    · exact Heap.get_modify_of_ne _ _ hr
    · rfl
  · split
    · exact Heap.get_modify_of_ne _ _ hr
    · rfl

/-- The status of an order that has been matched. -/
theorem restOrder_status (S : LevelSort) (book : OrderBook) {orders : Heap Order}
    (hopened : (orders.get taker).status = .opened) :
    ((restOrder S taker book orders).2.get taker).status = .filled ↔
      (orders.get taker).remaining = 0 := by
  unfold restOrder
  dsimp only
  split
  next hleft =>
    have hne : (orders.get taker).remaining ≠ 0 := hleft.1.ne'
    split
    · rw [Heap.get_modify_self]
      simp [setStatus, hne]
    · simp [hopened, hne]
  · split
    next hzero =>
      simp [setStatus, hzero]
    next hne =>
      simp [hopened, hne]

variable {me : MatchingEngine}

/-- The new order has not traded. -/
theorem Conserved.filling {order : Order} (h : Conserved me) (hfresh : order.Fresh)
    (orderIndex : Hash → Option OrderRef) :
    Filling me.fills me.orders.size ⟨me.orders.alloc order, orderIndex, []⟩ := by
  have hold {r : OrderRef} (hr : r < me.orders.size + 1) (hne : r ≠ me.orders.size) :
      r < me.orders.size ∧ (me.orders.alloc order).get r = me.orders.get r :=
    ⟨Nat.lt_of_le_of_ne (Nat.lt_succ_iff.mp hr) hne, Heap.get_alloc_of_ne _ _ hne⟩
  refine ⟨fun r hr => ?_, fun r hr => ?_, fun r hr hne => ?_, ?_, by simp⟩
  · by_cases hne : r = me.orders.size
    · have hnone : filledBy me.fills me.orders.size = 0 :=
        filledBy_eq_zero fun f hf => ⟨(h.proper f hf).maker.ne', (h.proper f hf).taker.ne'⟩
      rw [hne, Heap.get_alloc_self, hfresh.filled, hnone]
      rfl
    · obtain ⟨hlt, hget⟩ := hold hr hne
      rw [hget, h.counted r hlt]
      exact (add_zero _).symm
  · by_cases hne : r = me.orders.size
    · rw [hne, Heap.get_alloc_self, remaining, hfresh.filled, sub_zero]
      exact hfresh.amount.le
    · obtain ⟨hlt, hget⟩ := hold hr hne
      rw [hget]
      exact h.left r hlt
  · obtain ⟨hlt, hget⟩ := hold hr hne
    rw [hget]
    exact h.status r hlt
  · rw [Heap.get_alloc_self]
    exact hfresh.status

/-- **A new order.** -/
theorem Conserved.enterOrder {order : Order} (h : Conserved me) (hfresh : order.Fresh) :
    Conserved (me.enterOrder P order) := by
  obtain ⟨b, hbuys⟩ : ∃ b, order.buys = !b := ⟨!order.buys, (Bool.not_not _).symm⟩
  have hmatched : Filling me.fills me.orders.size (me.matched P order).2 := by
    rw [(matched_levels P me hbuys).2.2]
    refine filling_matchLevels ?_ (Nat.lt_succ_self _) (h.books.clearing_start hfresh)
      (h.filling hfresh _)
    rwa [Heap.get_alloc_self]
  have hgrown : (me.enterOrder P order).orders.size = me.orders.size + 1 :=
    (standing_restOrder _ _ _ _).1.trans (h.books.clearing hbuys hfresh).size
  obtain ⟨hsize, hstanding⟩ :=
    standing_restOrder P.levelSort me.orders.size (me.matched P order).1
      (me.matched P order).2.orders
  have hfilled (r : OrderRef) : ((me.enterOrder P order).orders.get r).filled =
      ((me.matched P order).2.orders.get r).filled := congrArg (·.2) (hstanding r)
  have hremaining (r : OrderRef) : ((me.enterOrder P order).orders.get r).remaining =
      ((me.matched P order).2.orders.get r).remaining := remaining_congr (hstanding r)
  refine ⟨h.books.enterOrder hfresh, fun r hr => ?_, fun r hr => ?_, fun r hr => ?_, fun f hf => ?_⟩
  · rw [hfilled, hmatched.counted r (hr.trans_eq hsize)]
    exact filledBy_append.symm
  · rw [hremaining]
    exact hmatched.left r (hr.trans_eq hsize)
  · rw [hremaining]
    by_cases hne : r = me.orders.size
    · rw [hne]
      exact restOrder_status _ _ hmatched.opened
    · rw [orders_enterOrder, restOrder_get_of_ne _ _ _ hne]
      exact hmatched.status r (hr.trans_eq hsize) hne
  · rcases mem_append.mp hf with hf | hf
    · exact (h.proper f hf).mono (hgrown.ge.trans' (Nat.le_succ _))
    · exact (hmatched.proper f hf).mono hsize.ge

/-- **An order is cancelled**, which was not filled. -/
theorem Conserved.withdrawOrder {id : Hash} {book : OrderBook}
    (h : Conserved me) (hbook : me.books pair = some book)
    (hstatus : (me.orders.get r).status ≠ .filled) :
    Conserved (me.withdrawOrder id pair book r) := by
  have hstanding (r' : OrderRef) : ((me.withdrawOrder id pair book r).orders.get r').standing =
      (me.orders.get r').standing := Heap.view_modify _ (standing_setStatus _) _ _
  refine ⟨h.books.withdrawOrder hbook, fun r' hr' => ?_, fun r' hr' => ?_, fun r' hr' => ?_,
    fun f hf => ?_⟩
  · exact (congrArg (·.2) (hstanding r')).trans (h.counted r' hr')
  · rw [remaining_congr (hstanding r')]
    exact h.left r' hr'
  · rw [remaining_congr (hstanding r'), ← h.status r' hr']
    by_cases hne : r' = r
    · subst hne
      refine iff_of_false ?_ hstatus
      have hget : (me.withdrawOrder id pair book r').orders.get r' =
          (me.orders.get r').setStatus .cancelled :=
        Heap.get_modify_self ..
      simp [hget, setStatus]
    · have hget : (me.withdrawOrder id pair book r).orders.get r' = me.orders.get r' :=
        Heap.get_modify_of_ne _ _ hne
      rw [hget]
  · exact (h.proper f hf).mono le_rfl

/-- **Any calls.** -/
theorem conserved_afterCalls (P : Platform) (calls : List Call) :
    Conserved (MatchingEngine.afterCalls P calls) := by
  refine afterCalls_inv (fun h hfresh _ => h.enterOrder hfresh) ?_ ?_ calls
  · exact fun h hbook _ hstatus => h.withdrawOrder hbook hstatus
  · refine ⟨?_, ?_, ?_, ?_, by simp⟩
    · exact fun _ _ hnone => absurd hnone (Option.some_ne_none _).symm
    all_goals exact fun r hr => absurd hr (Nat.not_lt_zero r)

/-- **Conservation of fills.**  After any calls, of every order object the trades in which it was
maker or taker add up to what is filled of it, which is no more than its amount and all of it
exactly when its status says so.  No trade is empty. -/
theorem fills_conserved (P : Platform) (calls : List Call) :
    let me := MatchingEngine.afterCalls P calls
    (∀ r < me.orders.size,
      (me.orders.get r).filled = filledBy me.fills r ∧
      (me.orders.get r).filled ≤ (me.orders.get r).amount ∧
      ((me.orders.get r).status = .filled ↔ (me.orders.get r).filled = (me.orders.get r).amount)) ∧
    ∀ f ∈ me.fills, 0 < f.trade.amount := by
  intro me
  have hinv : Conserved me := conserved_afterCalls P calls
  refine ⟨fun r hr => ⟨hinv.counted r hr, sub_nonneg.mp (hinv.left r hr), ?_⟩,
    fun f hf => (hinv.proper f hf).amount⟩
  rw [hinv.status r hr, remaining, sub_eq_zero]
  exact eq_comm

end ProbeChain.Superlight
