/-
# What `CancelOrder` cancels

An order is cancelled by its ID, and the ID is a digest of the owner, the pair, the side, the price,
the amount and the number of the block.  An owner who places the same order twice in a block has two
orders of one ID, and so has one who moves a byte from the price to the amount.  The index of the
book has the one that was placed last, until one of the two is filled or cancelled; from then on it
has none.  And what leaves the book is the first order of the ID at the price, which may be another
than the one that gets the status `cancelled`.

`cancels_exactly_iff` says for which of the orders that rest after any calls a cancellation does
what it should.  One whose ID no other order has is among them.
-/
import ProbeChain.Superlight.Priority
import ProbeChain.Superlight.Identifiers

namespace ProbeChain.Superlight

open Option List Function MatchingEngine Superlight.Order

/-! ## 1. What happens to an order -/

/-- All of an order but what is filled of it and its status. -/
def Order.fixed (o : Order) : Order := { o with filled := 0, status := .opened }

theorem Order.fixed_addFilled (amount : Int) (o : Order) : (o.addFilled amount).fixed = o.fixed :=
  rfl

theorem Order.fixed_setStatus (status : OrderStatus) (o : Order) :
    (o.setStatus status).fixed = o.fixed := rfl

/-- What `o` may become when orders are matched. -/
structure Follows (o o' : Order) : Prop where
  fixed : o'.fixed = o.fixed
  cancelled : o'.status = .cancelled → o.status = .cancelled

variable {o o' o'' : Order}

theorem Follows.refl (o : Order) : Follows o o := ⟨rfl, id⟩

section
variable (h : Follows o o')
include h

theorem Follows.trans (h' : Follows o' o'') : Follows o o'' :=
  ⟨h'.fixed.trans h.fixed, h.cancelled ∘ h'.cancelled⟩

theorem Follows.id : o'.id = o.id := (congrArg Order.id h.fixed :)

theorem Follows.owner : o'.owner = o.owner := (congrArg Order.owner h.fixed :)

theorem Follows.buys : o'.buys = o.buys := (congrArg Order.buys h.fixed :)

theorem Follows.identified {P : Platform} (hid : o.Identified P) : o'.Identified P := by
  have hfixed : o'.fixed.Identified P := by
    rw [h.fixed]
    exact hid
  exact hfixed

end

variable {P : Platform} {taker : OrderRef} {timestamp blockNum : UInt64} {price : Int}
  {maker : OrderRef}
  {m : Matching}

/-- A status that is set is not `cancelled`. -/
theorem follows_setStatus (orders : Heap Order) (r r' : OrderRef) {status : OrderStatus}
    (h : status ≠ .cancelled) :
    Follows (orders.get r') ((orders.modify r (.setStatus status)).get r') := by
  refine ⟨Heap.view_modify _ (fixed_setStatus _) r r', fun hcancelled => ?_⟩
  by_cases hr : r' = r
  · rw [hr, Heap.get_modify_self] at hcancelled
    exact absurd hcancelled h
  · rwa [Heap.get_modify_of_ne _ _ hr] at hcancelled

theorem follows_addFilled (orders : Heap Order) (r r' : OrderRef) (amount : Int) :
    Follows (orders.get r') ((orders.modify r (.addFilled amount)).get r') := by
  refine ⟨Heap.view_modify _ (fixed_addFilled _) r r', fun hcancelled => ?_⟩
  have hstatus := orders.view_modify (g := status) (f := addFilled amount) (fun _ => rfl) r r'
  exact hstatus.symm.trans hcancelled

/-- **One trade.** -/
theorem follows_trade (r : OrderRef) :
    Follows (m.orders.get r) ((trade P taker timestamp blockNum price maker m).orders.get r) := by
  refine ((follows_addFilled m.orders maker r _).trans (follows_addFilled _ taker r _)).trans
    (follows_setStatus _ maker r ?_)
  split
  · rintro ⟨⟩
  · rintro ⟨⟩

/-- **Both loops.** -/
theorem follows_matchLevels (levels : List PriceLevel) (m : Matching) (r : OrderRef) :
    Follows (m.orders.get r)
      ((matchLevels P taker timestamp blockNum levels m).2.orders.get r) := by
  refine matchLevels_inv (Q := fun _ m' => Follows (m.orders.get r) (m'.orders.get r)) ?_ ?_
    (Follows.refl _)
  · intro price maker orders rest m' h _ _
    exact h.trans (follows_trade r)
  · exact fun h => h

theorem follows_restOrder (S : LevelSort) (taker : OrderRef) (book : OrderBook)
    (orders : Heap Order) (r : OrderRef) :
    Follows (orders.get r) ((restOrder S taker book orders).2.get r) := by
  unfold restOrder
  dsimp only
  split
  · split
    · exact follows_setStatus _ _ _ (by rintro ⟨⟩)
    · exact Follows.refl _
  · split
    · exact follows_setStatus _ _ _ (by rintro ⟨⟩)
    · exact Follows.refl _

/-- **A new order.** -/
theorem follows_enterOrder (P : Platform) (me : MatchingEngine) (order : Order) (r : OrderRef) :
    Follows ((me.orders.alloc order).get r) ((me.enterOrder P order).orders.get r) := by
  have hmatched : Follows ((me.orders.alloc order).get r)
      ((me.matched P order).2.orders.get r) := by
    rw [(matched_levels P me (buys_eq_not_oppositeSide order)).2.2]
    exact follows_matchLevels _ ⟨me.orders.alloc order,
      (me.getOrCreateBook order.pair).orderIndex, []⟩ r
  exact hmatched.trans (follows_restOrder _ _ _ _ r)

/-! ## 2. Taking one order out of a queue -/

variable {α : Type*} {l : List α} {p q : α → Bool}

theorem eraseP_congr (h : ∀ a ∈ l, p a = q a) : l.eraseP p = l.eraseP q := by
  induction l with
  | nil => rfl
  | cons a l ih =>
    obtain ⟨ha, hl⟩ := forall_mem_cons.mp h
    rw [eraseP_cons, eraseP_cons, ha, ih hl]

/-- In a list that is ordered, it is `a` that leaves if `a` is the first for which `p` holds. -/
theorem eraseP_eq_erase_iff [DecidableEq α] {R : α → α → Prop} (hR : ∀ {a b}, R a b → ¬ R b a)
    (hl : l.Pairwise R) {a : α} (ha : a ∈ l) :
    l.eraseP p = l.erase a ↔ p a = true ∧ ∀ a' ∈ l, R a' a → p a' = false := by
  have hirrefl {x : α} : ¬ R x x := fun h => hR h h
  have hnodup : l.Nodup := by
    refine hl.imp fun {x y} hxy => ?_
    rintro rfl
    exact hirrefl hxy
  constructor
  · intro heq
    have hgone : a ∉ l.eraseP p := by
      rw [heq]
      exact hnodup.not_mem_erase
    have hpa : p a = true := by
      by_contra hpa
      exact hgone ((mem_eraseP_of_neg hpa).mpr ha)
    refine ⟨hpa, fun a' ha' hbefore => ?_⟩
    obtain ⟨x, l₁, l₂, hl₁, hx, rfl, heraseP⟩ := exists_of_eraseP ha hpa
    rw [heraseP] at hgone
    -- what left is `a`, and everything after it comes after it
    obtain rfl : a = x := by
      rcases mem_append.mp ha with ha | ha
      · exact absurd (mem_append_left _ ha) hgone
      · exact (mem_cons.mp ha).resolve_right fun ha => hgone (mem_append_right _ ha)
    rcases mem_append.mp ha' with ha' | ha'
    · exact Bool.eq_false_iff.mpr (hl₁ a' ha')
    · rcases mem_cons.mp ha' with rfl | ha'
      · exact absurd hbefore hirrefl
      · have hafter := (pairwise_cons.mp (pairwise_append.mp hl).2.1).1 a' ha'
        exact absurd hbefore (hR hafter)
  · rintro ⟨hpa, hfirst⟩
    obtain ⟨x, l₁, l₂, hl₁, hx, rfl, heraseP⟩ := exists_of_eraseP ha hpa
    have hnot : a ∉ l₁ := fun hmem => hl₁ a hmem hpa
    obtain rfl : a = x := by
      rcases mem_cons.mp ((mem_append.mp ha).resolve_left hnot) with rfl | hafter
      · rfl
      · have hbefore := (pairwise_cons.mp (pairwise_append.mp hl).2.1).1 a hafter
        rw [hfirst x (by simp) hbefore] at hx
        cases hx
    rw [heraseP, erase_append_right _ hnot, erase_cons_head]

variable {orders : Heap Order} {pair : TradingPair} {b : Bool} {levels : List PriceLevel}

/-- The order with the ID and at the price. -/
def matchesID (orders : Heap Order) (id : Hash) (price : Int) (r : OrderRef) : Bool :=
  (orders.get r).price = price ∧ (orders.get r).id = id

theorem matchesID_congr {orders' : Heap Order}
    (h : ∀ r, (orders'.get r).fixed = (orders.get r).fixed) (id : Hash) (price : Int) :
    matchesID orders' id price = matchesID orders id price := by
  funext r
  have hprice : (orders'.get r).price = (orders.get r).price := (congrArg Order.price (h r) :)
  have hid : (orders'.get r).id = (orders.get r).id := (congrArg Order.id (h r) :)
  rw [matchesID, matchesID, hprice, hid]

theorem matchesID_iff {id : Hash} {r : OrderRef} :
    matchesID orders id price r = true ↔ (orders.get r).price = price ∧ (orders.get r).id = id :=
  decide_eq_true_iff

/-- **The first order with the ID at the price leaves the queue.** -/
theorem queueOf_removeFromLevels (h : SideInv orders pair b levels) (id : Hash) (price : Int) :
    queueOf (removeFromLevels orders id price levels) =
      (queueOf levels).eraseP (matchesID orders id price) := by
  induction levels with
  | nil => rfl
  | cons level rest ih =>
    have hrest := h.sublist (sublist_cons_self level rest)
    have hlevel := h.resting level mem_cons_self
    rw [removeFromLevels, queueOf_cons]
    split
    next hprice =>
      have hsame : ∀ r ∈ level.orders, matchesID orders id price r =
          decide ((orders.get r).id = id) := by
        intro r hr
        simp [matchesID, (hlevel r hr).price, hprice]
      have hother : ∀ r ∈ queueOf rest, ¬ matchesID orders id price r = true := by
        intro r hr hmatches
        obtain ⟨other, hmem, hr⟩ := mem_queueOf.mp hr
        have hless := (pairwise_cons.mp h.sorted).1 other hmem
        have hthere := (hrest.resting other hmem r hr).price
        rw [(matchesID_iff.mp hmatches).1, ← hprice] at hthere
        exact PriceLevel.ne_of_less hless hthere
      have hleft : queueOf (let left := level.orders.eraseP fun r => (orders.get r).id = id
          if left = [] then rest else { level with orders := left } :: rest) =
          (level.orders.eraseP fun r => (orders.get r).id = id) ++ queueOf rest := by
        dsimp only
        split
        next hnil =>
          rw [hnil, nil_append]
        · rw [queueOf_cons]
      rw [hleft]
      by_cases hany : ∃ r ∈ level.orders, matchesID orders id price r = true
      · obtain ⟨r, hr, hmatches⟩ := hany
        rw [eraseP_append_left hmatches _ hr, eraseP_congr hsame]
      · have hnone : ∀ r ∈ level.orders, ¬ matchesID orders id price r = true :=
          fun r hr hm => hany ⟨r, hr, hm⟩
        rw [eraseP_append_right _ hnone, eraseP_of_forall_not hother, eraseP_of_forall_not]
        intro r hr
        rw [← hsame r hr]
        exact hnone r hr
    next hprice =>
      have hnone : ∀ r ∈ level.orders, ¬ matchesID orders id price r = true := by
        intro r hr hmatches
        exact hprice ((hlevel r hr).price.symm.trans (matchesID_iff.mp hmatches).1)
      rw [queueOf_cons, ih hrest, eraseP_append_right _ hnone]

/-! ## 3. The queues and the index -/

/-- The index without the IDs of the orders. -/
def delist (orders : Heap Order) (done : List OrderRef) (index : Hash → Option OrderRef) :
    Hash → Option OrderRef :=
  fun id => if id ∈ done.map (fun r => (orders.get r).id) then none else index id

theorem delist_eq_some {done : List OrderRef} {index : Hash → Option OrderRef} {id : Hash}
    {r : OrderRef} : delist orders done index id = some r ↔
      (∀ r' ∈ done, (orders.get r').id ≠ id) ∧ index id = some r := by
  rw [delist]
  split
  next hmem =>
    obtain ⟨r', hr', hid⟩ := mem_map.mp hmem
    exact iff_of_false (by simp) fun h => h.1 r' hr' hid
  next hmem =>
    refine ⟨fun h => ⟨fun r' hr' hid => hmem (mem_map.mpr ⟨r', hr', hid⟩), h⟩, fun h => h.2⟩

theorem delist_append (orders : Heap Order) (done : List OrderRef) (r : OrderRef)
    (index : Hash → Option OrderRef) :
    delist orders (done ++ [r]) index =
      update (delist orders done index) (orders.get r).id none := by
  funext id
  unfold delist
  by_cases hid : id = (orders.get r).id
  · simp [hid]
  · simp [hid]

/-- Only the IDs of the orders count. -/
theorem delist_congr {orders' : Heap Order} {done : List OrderRef}
    (h : ∀ r ∈ done, (orders'.get r).id = (orders.get r).id) (index : Hash → Option OrderRef) :
    delist orders' done index = delist orders done index := by
  unfold delist
  rw [map_congr_left h]

variable {start : Heap Order} {index : Hash → Option OrderRef} {queue : List OrderRef}

/-- The makers that are filled leave the queue, and whatever has their ID leaves the index. -/
def Delisted (start : Heap Order) (index : Hash → Option OrderRef) (queue pending : List OrderRef)
    (m : Matching) :
    Prop :=
  ∃ done, queue = done ++ pending ∧ m.orderIndex = delist start done index

variable (P taker timestamp blockNum) in
/-- **One trade.** -/
theorem Delisted.trade (price : Int) {pending : List OrderRef}
    (hid : (m.orders.get maker).id = (start.get maker).id)
    (h : Delisted start index queue (maker :: pending) m) :
    let m' := trade P taker timestamp blockNum price maker m
    Delisted start index queue (if (m'.orders.get maker).isFilled then pending
      else maker :: pending) m' := by
  intro m'
  obtain ⟨done, hqueue, hindex⟩ := h
  by_cases hfilled : (m'.orders.get maker).isFilled
  · rw [if_pos hfilled]
    refine ⟨done ++ [maker], by simp [hqueue], ?_⟩
    rw [trade_orderIndex, if_pos hfilled, hid, hindex, delist_append]
  · rw [if_neg hfilled]
    refine ⟨done, hqueue, ?_⟩
    rw [trade_orderIndex, if_neg hfilled, hindex]

variable (P taker timestamp blockNum) in
/-- **Both loops.** -/
theorem delisted_matchLevels (levels : List PriceLevel) (m : Matching) :
    Delisted m.orders m.orderIndex (queueOf levels)
      (queueOf (matchLevels P taker timestamp blockNum levels m).1)
      (matchLevels P taker timestamp blockNum levels m).2 := by
  refine (matchLevels_inv (P := P)
    (Q := fun levels' m' => (∀ r, Follows (m.orders.get r) (m'.orders.get r)) ∧
    Delisted m.orders m.orderIndex (queueOf levels) (queueOf levels') m') ?_ ?_
      ⟨fun r => Follows.refl _, ?_⟩).2
  · rintro price maker orders rest m' ⟨hfollows, h⟩ _ _
    refine ⟨fun r => (hfollows r).trans (follows_trade r), ?_⟩
    have hdelisted := Delisted.trade P taker timestamp blockNum price (hfollows maker).id h
    dsimp only at hdelisted ⊢
    split
    next hfilled =>
      rwa [if_pos hfilled] at hdelisted
    next hfilled =>
      rwa [if_neg hfilled] at hdelisted
  · rintro price rest m' ⟨hfollows, h⟩
    exact ⟨hfollows, h⟩
  · exact ⟨[], rfl, funext fun id => by simp [delist]⟩

/-- **The order joins the queue.** -/
theorem perm_queueOf_addToLevels (S : LevelSort) (less : PriceLevel → PriceLevel → Bool)
    (r : OrderRef) (price : Int) :
    (queueOf (addToLevels S less r price levels)).Perm (r :: queueOf levels) := by
  unfold addToLevels
  split
  next hjoin =>
    obtain ⟨before, level, after, rfl, -, rfl⟩ := joinLevel_eq_some hjoin
    simp only [queueOf, flatMap_append, flatMap_cons, append_assoc, singleton_append]
    refine (perm_append_left_iff _).mpr perm_middle |>.trans perm_middle
  · refine ((S.perm _ _).flatMap_right _).trans ?_
    simp only [flatMap_append, flatMap_singleton, queueOf]
    exact perm_append_singleton _ _

variable {me : MatchingEngine} {order : Order}

/-- What a new order does to the book of its pair.  The makers that are filled leave the side `b`,
and the order may join the other. -/
structure Entered (me : MatchingEngine) (order : Order) (b : Bool) (done : List OrderRef)
    (book : OrderBook) : Prop where
  taken : (me.getOrCreateBook order.pair).queue b = done ++ book.queue b
  joined : book.queue (!b) = (me.getOrCreateBook order.pair).queue (!b) ∧
      book.orderIndex = delist me.orders done (me.getOrCreateBook order.pair).orderIndex ∨
    (book.queue !b).Perm (me.orders.size :: (me.getOrCreateBook order.pair).queue !b) ∧
      book.orderIndex =
        update (delist me.orders done (me.getOrCreateBook order.pair).orderIndex) order.id
        (some me.orders.size)

theorem EngineInv.entered (h : EngineInv me) (hbuys : order.buys = !b) :
    ∃ book done, (me.enterOrder P order).books order.pair = some book ∧
    Entered me order b done book := by
  set old := me.getOrCreateBook order.pair
  obtain ⟨hlevels, hother, hmatching⟩ := matched_levels P me hbuys
  obtain ⟨done, hqueue, hindex⟩ :=
    delisted_matchLevels P me.orders.size order.timestamp order.blockNum
    (old.levels b) ⟨me.orders.alloc order, old.orderIndex, []⟩
  rw [← hlevels] at hqueue
  rw [← hmatching] at hindex
  have hmatched : (me.matched P order).1.orderIndex = delist me.orders done old.orderIndex := by
    have hcongr : delist (me.orders.alloc order) done old.orderIndex =
        delist me.orders done old.orderIndex := by
      refine delist_congr (fun r hr => ?_) _
      have hmem : r ∈ old.queue b := by
        rw [OrderBook.queue, hqueue]
        exact mem_append_left _ hr
      rw [Heap.get_alloc_of_lt _ _ (h.queue_lt hmem)]
    rw [← hcongr, ← hindex]
    exact matchOrder_orderIndex P _ _ _ _ _
  refine ⟨_, done, books_enterOrder_self order, ?_⟩
  rw [restOrder_book]
  split
  · have hfollows := follows_enterOrder P me order me.orders.size
    rw [Heap.get_alloc_self, orders_enterOrder] at hfollows
    obtain ⟨hsame, hkept⟩ := levels_addOrder (me.matched P order).1 P.levelSort me.orders.size
      (hfollows.buys.trans hbuys)
    rw [Bool.not_not] at hkept
    refine ⟨?_, .inr ⟨?_, ?_⟩⟩
    · rw [OrderBook.queue, OrderBook.queue, hkept]
      exact hqueue
    · rw [OrderBook.queue, OrderBook.queue, hsame, hother]
      exact perm_queueOf_addToLevels _ _ _ _
    · rw [orderIndex_addOrder, hfollows.id, hmatched]
  · exact ⟨hqueue, .inl ⟨congrArg queueOf hother, hmatched⟩⟩

variable {done : List OrderRef} {book : OrderBook} {c : Bool} {r : OrderRef}

section
variable (h : Entered me order b done book)
include h

/-- An order that is not filled stays where it was. -/
theorem Entered.stays (hr : r ∈ (me.getOrCreateBook order.pair).queue c)
    (hdone : r ∉ done) : r ∈ book.queue c := by
  by_cases hc : c = b
  · rw [hc, h.taken] at hr
    rw [hc]
    exact (mem_append.mp hr).resolve_left hdone
  · rw [Bool.eq_not.mpr hc] at hr ⊢
    rcases h.joined with ⟨hqueue, -⟩ | ⟨hqueue, -⟩
    · rwa [hqueue]
    · exact hqueue.mem_iff.mpr (mem_cons_of_mem _ hr)

theorem Entered.mem_old (hr : r ∈ book.queue c) (hne : r ≠ me.orders.size) :
    r ∈ (me.getOrCreateBook order.pair).queue c := by
  by_cases hc : c = b
  · rw [hc] at hr
    rw [hc, h.taken]
    exact mem_append_right _ hr
  · rw [Bool.eq_not.mpr hc] at hr ⊢
    rcases h.joined with ⟨hqueue, -⟩ | ⟨hqueue, -⟩
    · rwa [← hqueue]
    · exact (mem_cons.mp (hqueue.mem_iff.mp hr)).resolve_left hne

theorem Entered.mem_of_done (hr : r ∈ done) : r ∈ (me.getOrCreateBook order.pair).queue b := by
  rw [h.taken]
  exact mem_append_left _ hr

end

/-- An order that is filled is gone. -/
theorem QueueInv.entered_disjoint (hinv : QueueInv me) (h : Entered me order b done book)
    (hr : r ∈ done) (c : Bool) :
    r ∉ book.queue c := by
  intro hmem
  have hold := h.mem_of_done hr
  have hlt := hinv.books.queue_lt hold
  have hc : c = b := (hinv.books.resting_queue (h.mem_old hmem hlt.ne)).buys.symm.trans
    (hinv.books.resting_queue hold).buys
  have hnodup := hinv.nodup_queue order.pair b
  rw [h.taken] at hnodup
  rw [hc] at hmem
  exact (nodup_append.mp hnodup).2.2 r hr r hmem rfl

section
variable (h : Entered me order b done book)
include h

/-- The index has the new order only if it rests. -/
theorem Entered.index_cases {id : Hash} (hr : book.orderIndex id = some r) :
    id = order.id ∧ r = me.orders.size ∧ r ∈ book.queue (!b) ∨
      delist me.orders done (me.getOrCreateBook order.pair).orderIndex id = some r := by
  rcases h.joined with ⟨-, hindex⟩ | ⟨hqueue, hindex⟩
  · rw [hindex] at hr
    exact .inr hr
  · rw [hindex, update_apply] at hr
    split at hr
    next hid =>
      obtain rfl := some.inj hr
      exact .inl ⟨hid, rfl, hqueue.mem_iff.mpr mem_cons_self⟩
    · exact .inr hr

theorem Entered.index_of_ne {id : Hash} (hid : id ≠ order.id) :
    book.orderIndex id = delist me.orders done (me.getOrCreateBook order.pair).orderIndex id := by
  rcases h.joined with ⟨-, hindex⟩ | ⟨-, hindex⟩
  · rw [hindex]
  · rw [hindex, update_of_ne hid]

theorem Entered.index_self
    (hnew : ∀ c, me.orders.size ∉ (me.getOrCreateBook order.pair).queue c)
    (hr : me.orders.size ∈ book.queue c) :
    book.orderIndex order.id = some me.orders.size := by
  rcases h.joined with ⟨hqueue, -⟩ | ⟨-, hindex⟩
  · refine absurd ?_ (hnew c)
    by_cases hc : c = b
    · rw [hc] at hr
      rw [hc, h.taken]
      exact mem_append_right _ hr
    · rw [Bool.eq_not.mpr hc] at hr ⊢
      rwa [← hqueue]
  · rw [hindex, update_self]

end

variable {ob : OrderBook} {id : Hash}

/-- **What a cancellation does to a book.** -/
theorem queue_removeOrder (h : BookInv orders pair ob) (hr : ob.orderIndex id = some r) (b : Bool) :
    (ob.removeOrder orders id).queue b = if (orders.get r).buys = b then
      (ob.queue b).eraseP (matchesID orders (orders.get r).id (orders.get r).price)
        else ob.queue b := by
  have hremoved := queueOf_removeFromLevels (h.side b) (orders.get r).id (orders.get r).price
  unfold OrderBook.removeOrder buys
  rw [hr]
  dsimp only
  split
  next hside =>
    cases b with
    | true => simpa [hside, OrderBook.queue, OrderBook.levels] using hremoved
    | false => simp [hside, OrderBook.queue, OrderBook.levels]
  next hside =>
    cases b with
    | true => simp [hside, OrderBook.queue, OrderBook.levels]
    | false => simpa [hside, OrderBook.queue, OrderBook.levels] using hremoved

theorem orderIndex_removeOrder (hr : ob.orderIndex id = some r) :
    (ob.removeOrder orders id).orderIndex = update ob.orderIndex id none := by
  unfold OrderBook.removeOrder
  rw [hr]
  dsimp only
  split <;> rfl

/-! ## 4. The index along a run -/

/-- No other order there has ever been has the ID. -/
def UniqueID (orders : Heap Order) (r : OrderRef) : Prop :=
  ∀ r' < orders.size, r' ≠ r → (orders.get r').id ≠ (orders.get r).id

/-- The index has orders that rest in the book and are not cancelled, and all that share their ID
with no other. -/
structure BookIndex (orders : Heap Order) (book : OrderBook) : Prop where
  listed : ∀ id r, book.orderIndex id = some r →
    (orders.get r).id = id ∧ r ∈ book.queue (orders.get r).buys ∧ (orders.get r).status ≠ .cancelled
  complete : ∀ b, ∀ r ∈ book.queue b, UniqueID orders r → book.orderIndex (orders.get r).id = some r

variable {orders' : Heap Order}

theorem UniqueID.mono (h : UniqueID orders' r) (hr : r < orders.size)
    (hsize : orders.size ≤ orders'.size)
    (hids : ∀ r < orders.size, (orders'.get r).id = (orders.get r).id) : UniqueID orders r := by
  intro r' hr' hne
  rw [← hids r' hr', ← hids r hr]
  exact h r' (hr'.trans_le hsize) hne

theorem BookIndex.congr (h : BookIndex orders book) (hlt : ∀ b, ∀ r ∈ book.queue b, r < orders.size)
    (hsize : orders.size ≤ orders'.size)
    (hids : ∀ r < orders.size, (orders'.get r).id = (orders.get r).id)
    (hfollows : ∀ b, ∀ r ∈ book.queue b, Follows (orders.get r) (orders'.get r)) :
    BookIndex orders' book where
  listed := by
    intro id r hr
    obtain ⟨hid, hmem, hstatus⟩ := h.listed id r hr
    have hrest := hfollows _ r hmem
    refine ⟨hrest.id.trans hid, ?_, fun hcancelled => hstatus (hrest.cancelled hcancelled)⟩
    rwa [hrest.buys]
  complete := by
    intro b r hr hunique
    have hlt := hlt b r hr
    rw [hids r hlt]
    exact h.complete b r hr (hunique.mono hlt hsize hids)

theorem BookIndex.listed_delist (h : BookIndex orders book)
    (hr : delist orders done book.orderIndex id = some r) : (orders.get r).id = id ∧
      r ∈ book.queue (orders.get r).buys ∧ (orders.get r).status ≠ .cancelled ∧ r ∉ done := by
  obtain ⟨hdone, hr⟩ := delist_eq_some.mp hr
  obtain ⟨hid, hmem, hstatus⟩ := h.listed id r hr
  exact ⟨hid, hmem, hstatus, fun hmem => hdone r hmem hid⟩

theorem BookIndex.complete_delist (h : BookIndex orders book)
    (hr : r ∈ book.queue b) (hdone : r ∉ done) (hlt : ∀ r' ∈ done, r' < orders.size)
    (hunique : UniqueID orders r) :
    delist orders done book.orderIndex (orders.get r).id = some r := by
  refine delist_eq_some.mpr ⟨fun r' hr' => ?_, h.complete b r hr hunique⟩
  exact hunique r' (hlt r' hr') (ne_of_mem_of_not_mem hr' hdone)

theorem bookIndex_new (orders : Heap Order) (pair : TradingPair) :
    BookIndex orders { pair := pair } where
  listed := fun _ _ hnone => absurd hnone (some_ne_none _).symm
  complete := fun b r hr => by cases b <;> exact absurd hr not_mem_nil

structure IndexInv (P : Platform) (me : MatchingEngine) : Prop where
  queue : QueueInv me
  identified : ∀ r < me.orders.size, (me.orders.get r).Identified P
  index : ∀ pair book, me.books pair = some book → BookIndex me.orders book

theorem IndexInv.getOrCreateBook (h : IndexInv P me) (pair : TradingPair) :
    BookIndex me.orders (me.getOrCreateBook pair) := by
  unfold MatchingEngine.getOrCreateBook
  cases hbook : me.books pair with
  | none => exact bookIndex_new me.orders pair
  | some book => exact h.index pair book hbook

theorem EngineInv.size_enterOrder (h : EngineInv me) (hfresh : order.Fresh) :
    (me.enterOrder P order).orders.size = me.orders.size + 1 :=
  (standing_restOrder _ _ _ _).1.trans (h.clearing (buys_eq_not_oppositeSide order) hfresh).size

/-- An order there was. -/
theorem follows_enterOrder_of_lt (P : Platform) (order : Order) (hr : r < me.orders.size) :
    Follows (me.orders.get r) ((me.enterOrder P order).orders.get r) := by
  have hfollows := follows_enterOrder P me order r
  rwa [Heap.get_alloc_of_lt _ _ hr] at hfollows

/-- The new order. -/
theorem follows_enterOrder_self (P : Platform) (me : MatchingEngine) (order : Order) :
    Follows order ((me.enterOrder P order).orders.get me.orders.size) := by
  have hfollows := follows_enterOrder P me order me.orders.size
  rwa [Heap.get_alloc_self] at hfollows

/-- The book of the pair of a new order. -/
theorem IndexInv.enterOrder_book (h : IndexInv P me) (hfresh : order.Fresh)
    (hbook : (me.enterOrder P order).books order.pair = some book) :
    BookIndex (me.enterOrder P order).orders book := by
  have hinv := h.queue.books
  have hbuys := buys_eq_not_oppositeSide order
  generalize oppositeSide order.side = b at hbuys
  obtain ⟨book', done, hbook', hentered⟩ := hinv.entered (P := P) hbuys
  obtain rfl := some.inj (hbook'.symm.trans hbook)
  have hold := h.getOrCreateBook order.pair
  have hself := follows_enterOrder_self P me order
  have hsize := hinv.size_enterOrder (P := P) hfresh
  refine ⟨fun id r hr => ?_, fun c r hr hunique => ?_⟩
  · rcases hentered.index_cases hr with ⟨rfl, rfl, hmem⟩ | hr
    · refine ⟨hself.id, ?_, fun hcancelled => ?_⟩
      · rwa [hself.buys, hbuys]
      · exact OrderStatus.noConfusion (hfresh.status.symm.trans (hself.cancelled hcancelled))
    · obtain ⟨hid, hmem, hstatus, hnot⟩ := hold.listed_delist hr
      have hfollows := follows_enterOrder_of_lt P order (hinv.queue_lt hmem)
      refine ⟨hfollows.id.trans hid, ?_, fun hcancelled => hstatus (hfollows.cancelled hcancelled)⟩
      rw [hfollows.buys]
      exact hentered.stays hmem hnot
  · by_cases hne : r = me.orders.size
    · subst hne
      rw [hself.id]
      exact hentered.index_self (fun c hmem => lt_irrefl _ (hinv.queue_lt hmem)) hr
    · have hmem := hentered.mem_old hr hne
      have hfollows := follows_enterOrder_of_lt P order (hinv.queue_lt hmem)
      have hother := hunique me.orders.size (by omega) (Ne.symm hne)
      rw [hself.id] at hother
      rw [hentered.index_of_ne hother.symm, hfollows.id]
      refine hold.complete_delist hmem (fun hdone => ?_) (fun r' hr' => ?_) ?_
      · exact (h.queue.entered_disjoint hentered hdone) c hr
      · exact hinv.queue_lt (hentered.mem_of_done hr')
      · exact hunique.mono (hinv.queue_lt hmem) (by omega) fun r' hr' =>
          (follows_enterOrder_of_lt P order hr').id

/-- **A new order.** -/
theorem IndexInv.enterOrder (h : IndexInv P me) (hfresh : order.Fresh) (hid : order.Identified P) :
    IndexInv P (me.enterOrder P order) := by
  have hsize := h.queue.books.size_enterOrder (P := P) hfresh
  refine ⟨h.queue.enterOrder hfresh, fun r hr => ?_, fun pair book hbook => ?_⟩
  · by_cases hne : r = me.orders.size
    · rw [hne]
      exact (follows_enterOrder_self P me order).identified hid
    · have hlt : r < me.orders.size := by omega
      exact (follows_enterOrder_of_lt P order hlt).identified (h.identified r hlt)
  · by_cases hpair : pair = order.pair
    · subst hpair
      exact h.enterOrder_book hfresh hbook
    · rw [books_enterOrder_of_ne order hpair] at hbook
      have hlt : ∀ b, ∀ r ∈ book.queue b, r < me.orders.size :=
        fun b r hr => (((h.queue.books pair book hbook).side b).resting_queue hr).placed
      refine (h.index pair book hbook).congr hlt (by omega) ?_ ?_
      · exact fun r hr => (follows_enterOrder_of_lt P order hr).id
      · exact fun b r hr => follows_enterOrder_of_lt P order (hlt b r hr)

section

theorem fixed_withdrawOrder (r' : OrderRef) :
    ((me.withdrawOrder id pair book r).orders.get r').fixed = (me.orders.get r').fixed :=
  Heap.view_modify _ (fixed_setStatus _) r r'

theorem id_withdrawOrder (r' : OrderRef) :
    ((me.withdrawOrder id pair book r).orders.get r').id = (me.orders.get r').id :=
  (congrArg Order.id (fixed_withdrawOrder r') :)

theorem withdrawOrder_get_of_ne {r' : OrderRef} (hne : r' ≠ r) :
    (me.withdrawOrder id pair book r).orders.get r' = me.orders.get r' :=
  Heap.get_modify_of_ne _ _ hne

theorem getOrCreateBook_of_some (hbook : me.books pair = some book) :
    me.getOrCreateBook pair = book := by
  rw [getOrCreateBook, hbook, getD_some]

/-- **What a cancellation does to the queues.** -/
theorem queue_withdrawOrder (h : EngineInv me) (hbook : me.books pair = some book)
    (hr : book.orderIndex id = some r) (pair' : TradingPair) (b : Bool) :
    ((me.withdrawOrder id pair book r).getOrCreateBook pair').queue b =
      if pair' = pair ∧ (me.orders.get r).buys = b then ((me.getOrCreateBook pair').queue b).eraseP
        (matchesID me.orders (me.orders.get r).id (me.orders.get r).price)
      else (me.getOrCreateBook pair').queue b := by
  by_cases hpair : pair' = pair
  · subst hpair
    have hinv : BookInv (me.withdrawOrder id pair' book r).orders pair' book :=
      (h pair' book hbook).congr le_rfl fun _ => Heap.view_modify _ (standing_setStatus _) _ _
    have hfixed (r' : OrderRef) : ((me.withdrawOrder id pair' book r).orders.get r').fixed =
        (me.orders.get r').fixed :=
      fixed_withdrawOrder r'
    have hprice : ((me.withdrawOrder id pair' book r).orders.get r).price =
        (me.orders.get r).price :=
      (congrArg price (hfixed r) :)
    have hbuys : ((me.withdrawOrder id pair' book r).orders.get r).buys = (me.orders.get r).buys :=
      (congrArg buys (hfixed r) :)
    rw [getOrCreateBook_of_some books_withdrawOrder_self, getOrCreateBook_of_some hbook,
      queue_removeOrder hinv hr, id_withdrawOrder, hprice, hbuys, matchesID_congr hfixed]
    simp only [true_and]
  · rw [if_neg fun hand => hpair hand.1]
    unfold getOrCreateBook
    rw [books_withdrawOrder_of_ne hpair]

/-- No order of the ID and the price is before `r`. -/
def FirstOfID (orders : Heap Order) (queue : List OrderRef) (r : OrderRef) : Prop :=
  ∀ r' ∈ queue, r' < r → (orders.get r').price = (orders.get r).price →
    (orders.get r').id ≠ (orders.get r).id

theorem QueueInv.eraseP_eq_erase_iff (h : QueueInv me)
    (hr : r ∈ (me.getOrCreateBook pair).queue b) :
    ((me.getOrCreateBook pair).queue b).eraseP
      (matchesID me.orders (me.orders.get r).id (me.orders.get r).price) =
      ((me.getOrCreateBook pair).queue b).erase r ↔
        FirstOfID me.orders ((me.getOrCreateBook pair).queue b) r := by
  rw [Superlight.eraseP_eq_erase_iff Precedes.asymm (h.pairwise_queue pair b) hr]
  constructor
  · rintro ⟨-, hfirst⟩ r' hr' hlt hprice hid
    have hother := hfirst r' hr' (.inr ⟨hprice, hlt⟩)
    rw [matchesID_iff.mpr ⟨hprice, hid⟩] at hother
    cases hother
  · intro hfirst
    refine ⟨matchesID_iff.mpr ⟨rfl, rfl⟩,
      fun r' hr' hprecedes => Bool.eq_false_iff.mpr fun hmatches => ?_⟩
    obtain ⟨hprice, hid⟩ := matchesID_iff.mp hmatches
    rcases hprecedes with hbetter | ⟨-, hlt⟩
    · rw [hprice, ite_self] at hbetter
      exact lt_irrefl _ hbetter
    · exact hfirst r' hr' hlt hprice hid

theorem UniqueID.firstOfID (h : EngineInv me) (hunique : UniqueID me.orders r) :
    FirstOfID me.orders ((me.getOrCreateBook pair).queue b) r :=
  fun r' hr' hlt _ => hunique r' (h.queue_lt hr') hlt.ne

variable (h : IndexInv P me) (hbook : me.books pair = some book) (hr : book.orderIndex id = some r)
include h hbook hr

/-- The book that the order was in.  The index loses the order, and the queue the first order with
its ID. -/
theorem IndexInv.withdrawOrder_book :
    BookIndex (me.withdrawOrder id pair book r).orders
      (book.removeOrder (me.withdrawOrder id pair book r).orders id) := by
  have hinv := h.queue.books
  have hold := h.index pair book hbook
  obtain ⟨hid, -⟩ := hold.listed id r hr
  have hqueue (b : Bool) := queue_withdrawOrder hinv hbook hr pair b
  simp only [getOrCreateBook_of_some books_withdrawOrder_self, getOrCreateBook_of_some hbook,
    true_and] at hqueue
  refine ⟨fun id' x hx => ?_, fun b x hx hunique => ?_⟩
  · rw [orderIndex_removeOrder hr, update_apply] at hx
    split at hx
    · cases hx
    next hne =>
      obtain ⟨hid', hmem', hstatus⟩ := hold.listed id' x hx
      have hxr : x ≠ r := by
        rintro rfl
        exact hne (hid'.symm.trans hid)
      rw [withdrawOrder_get_of_ne hxr]
      refine ⟨hid', ?_, hstatus⟩
      rw [hqueue]
      split
      · refine (mem_eraseP_of_neg fun hmatches => ?_).mpr hmem'
        exact hne (hid'.symm.trans ((matchesID_iff.mp hmatches).2.trans hid))
      · exact hmem'
  · rw [hqueue] at hx
    have hxold : x ∈ book.queue b := by
      split at hx
      · exact mem_of_mem_eraseP hx
      · exact hx
    have hrest := ((hinv pair book hbook).side b).resting_queue hxold
    have hunique' : UniqueID me.orders x :=
      hunique.mono hrest.placed le_rfl fun r' _ => id_withdrawOrder r'
    have hlisted := hold.complete b x hxold hunique'
    rw [id_withdrawOrder, orderIndex_removeOrder hr, update_apply]
    split
    · -- the order that was cancelled has left the queue
      rename_i hsame
      rw [hsame, hr] at hlisted
      obtain rfl : r = x := some.inj hlisted
      rw [if_pos hrest.buys] at hx
      rw [← getOrCreateBook_of_some hbook] at hx hxold
      rw [(h.queue.eraseP_eq_erase_iff hxold).mpr (hunique'.firstOfID hinv)] at hx
      exact absurd hx (h.queue.nodup_queue pair b).not_mem_erase
    · exact hlisted

/-- The books of the other pairs. -/
theorem IndexInv.withdrawOrder_book_of_ne
    {pair' : TradingPair} {book' : OrderBook} (hpair : pair' ≠ pair)
    (hbook' : me.books pair' = some book') :
    BookIndex (me.withdrawOrder id pair book r).orders book' := by
  have hinv := h.queue.books
  obtain ⟨-, hmem, -⟩ := (h.index pair book hbook).listed id r hr
  have hne {b : Bool} {r' : OrderRef} (hr' : r' ∈ book'.queue b) : r' ≠ r := by
    rintro rfl
    have hthere := ((hinv pair' book' hbook').side b).resting_queue hr' |>.pair
    exact hpair (hthere.symm.trans (((hinv pair book hbook).side _).resting_queue hmem).pair)
  refine (h.index pair' book' hbook').congr ?_ le_rfl
    (fun r' _ => id_withdrawOrder r') fun b r' hr' => ?_
  · exact fun b r' hr' => (((hinv pair' book' hbook').side b).resting_queue hr').placed
  · rw [withdrawOrder_get_of_ne (hne hr')]
    exact Follows.refl _

/-- **An order is cancelled.** -/
theorem IndexInv.withdrawOrder : IndexInv P (me.withdrawOrder id pair book r) := by
  refine ⟨h.queue.withdrawOrder hbook, fun r' hr' => ?_, fun pair' book' hbook' => ?_⟩
  · have hfixed : ((me.withdrawOrder id pair book r).orders.get r').fixed.Identified P := by
      rw [fixed_withdrawOrder]
      exact h.identified r' hr'
    exact hfixed
  obtain ⟨rfl, rfl⟩ | ⟨hpair, hbook'⟩ := books_withdrawOrder_eq_some hbook'
  · exact h.withdrawOrder_book hbook hr
  · exact h.withdrawOrder_book_of_ne hbook hr hpair hbook'

end

variable (P) in
/-- **Any calls.** -/
theorem indexInv_afterCalls (calls : List Call) : IndexInv P (afterCalls P calls) := by
  refine afterCalls_inv (fun h hfresh hid => h.enterOrder hfresh hid) ?_
    ⟨queueInv_afterCalls P [], ?_, ?_⟩ calls
  · exact fun h hbook hr _ => h.withdrawOrder hbook hr
  · exact fun r hr => absurd hr (Nat.not_lt_zero r)
  · exact fun _ _ hnone => absurd hnone (some_ne_none _).symm

/-! ## 5. An order that has left the books -/

/-- The order `r` is in no book, and in no trade from the `n`-th on. -/
structure Gone (r : OrderRef) (n : Nat) (me : MatchingEngine) : Prop where
  queue : QueueInv me
  placed : r < me.orders.size
  out : ∀ pair b, r ∉ (me.getOrCreateBook pair).queue b
  length : n ≤ me.fills.length
  fills : ∀ f ∈ me.fills.drop n, f.maker ≠ r ∧ f.taker ≠ r

variable {n : Nat}

/-- **A new order.** -/
theorem Gone.enterOrder (h : Gone r n me) (hfresh : order.Fresh) :
    Gone r n (me.enterOrder P order) := by
  have hbuys := buys_eq_not_oppositeSide order
  have hsize := h.queue.books.size_enterOrder (P := P) hfresh
  have hfills : (me.enterOrder P order).fills = me.fills ++ (me.matched P order).2.fills := rfl
  refine ⟨h.queue.enterOrder hfresh, ?_, fun pair b hmem => ?_, ?_, ?_⟩
  · rw [hsize]
    exact Nat.lt_succ_of_lt h.placed
  · by_cases hpair : pair = order.pair
    · subst hpair
      obtain ⟨book, done, hbook, hentered⟩ := h.queue.books.entered (P := P) hbuys
      rw [getOrCreateBook_of_some hbook] at hmem
      exact h.out order.pair b (hentered.mem_old hmem h.placed.ne)
    · rw [getOrCreateBook, books_enterOrder_of_ne order hpair] at hmem
      exact h.out pair b hmem
  · rw [hfills, length_append]
    exact h.length.trans (Nat.le_add_right _ _)
  · rw [hfills, drop_append_of_le_length h.length]
    refine forall_mem_append.mpr ⟨h.fills, fun f hf => ⟨?_, ?_⟩⟩
    · -- the makers are from the book
      have hmaker := (h.queue.swept (P := P) hfresh hbuys).ordered.subset (mem_map_of_mem hf)
      exact ne_of_mem_of_not_mem hmaker (h.out _ _)
    · rw [(h.queue.swept hfresh hbuys).made f hf]
      exact h.placed.ne'

/-- **An order is cancelled.** -/
theorem Gone.withdrawOrder {r' : OrderRef} (h : Gone r n me)
    (hbook : me.books pair = some book) (hr' : book.orderIndex id = some r') :
    Gone r n (me.withdrawOrder id pair book r') := by
  refine ⟨h.queue.withdrawOrder hbook, h.placed, fun pair' b hmem => ?_, h.length, h.fills⟩
  rw [queue_withdrawOrder h.queue.books hbook hr'] at hmem
  split at hmem
  · exact h.out pair' b (mem_of_mem_eraseP hmem)
  · exact h.out pair' b hmem

/-- **Any calls.** -/
theorem Gone.afterCalls (h : Gone r n me) (calls : List Call) :
    Gone r n (calls.foldl (afterCall P) me) := by
  refine foldlRecOn calls _ h fun _ h c _ =>
    afterCall_inv (fun h hfresh _ => h.enterOrder hfresh) ?_ h c
  exact fun h hbook hr _ => h.withdrawOrder hbook hr

/-! ## 6. Cancellation -/

/-- No two of the byte strings that have been hashed for an ID have the same digest. -/
def CollisionFree (P : Platform) (orders : Heap Order) : Prop :=
  ∀ r < orders.size, ∀ r' < orders.size, P.sha256 (orders.get r).hashed =
    P.sha256 (orders.get r').hashed → (orders.get r).hashed = (orders.get r').hashed

/-- `CancelOrder` for the order `r`, whatever way Go ranges over the books: it succeeds, the order
gets its status and leaves its queue, nothing else changes, and it does not trade any more. -/
def CancelsExactly (P : Platform) (me : MatchingEngine) (r : OrderRef) : Prop :=
  ∀ visit : List TradingPair, (me.orders.get r).pair ∈ visit → ∃ me',
    me.cancelOrder (me.orders.get r).id (me.orders.get r).owner visit = .ok me' ∧
    me'.orders = me.orders.modify r (.setStatus .cancelled) ∧
    (∀ pair b, (me'.getOrCreateBook pair).queue b = ((me.getOrCreateBook pair).queue b).erase r) ∧
    ∀ calls : List Call, ∀ f ∈ (calls.foldl (afterCall P) me').fills.drop me'.fills.length,
      f.maker ≠ r ∧ f.taker ≠ r

section

/-- Orders of different pairs have different IDs. -/
theorem IndexInv.pair_of_id (h : IndexInv P me) (hfree : CollisionFree P me.orders) {r' : OrderRef}
    (hr : r < me.orders.size) (hr' : r' < me.orders.size)
    (hid : (me.orders.get r).id = (me.orders.get r').id) :
    (me.orders.get r).pair = (me.orders.get r').pair := by
  have hdigest : P.sha256 (me.orders.get r).hashed = P.sha256 (me.orders.get r').hashed :=
    (h.identified r hr).symm.trans (hid.trans (h.identified r' hr'))
  exact (fields_of_hashed (hfree r hr r' hr' hdigest)).1.2.1

/-- The loop over the books finds an order that the index has. -/
theorem cancelOrder_of_index {owner : Address} (hbook : me.books pair = some book)
    (hr : book.orderIndex id = some r)
    (hother : ∀ pair' ≠ pair, ∀ book', me.books pair' = some book' → book'.orderIndex id = none)
    {visit : List TradingPair} (hvisit : pair ∈ visit) :
    me.cancelOrder id owner visit = me.cancelInBook id owner pair book r := by
  induction visit with
  | nil => exact absurd hvisit not_mem_nil
  | cons first visit ih =>
    rw [cancelOrder]
    by_cases hfirst : first = pair
    · rw [hfirst]
      simp only [hbook, hr]
    · have hrest := ih ((mem_cons.mp hvisit).resolve_left (Ne.symm hfirst))
      cases hbook' : me.books first with
      | none => simpa using hrest
      | some book' => simpa [hother first hfirst book' hbook'] using hrest

variable (h : IndexInv P me) (hr : r ∈ (me.getOrCreateBook pair).queue b)
include h hr

/-- The index of a book has no order of another pair. -/
theorem IndexInv.orderIndex_of_ne (hfree : CollisionFree P me.orders) :
    ∀ pair' ≠ pair, ∀ book', me.books pair' = some book' →
    book'.orderIndex (me.orders.get r).id = none := by
  intro pair' hpair book' hbook'
  refine eq_none_iff_forall_not_mem.mpr fun x hx => hpair ?_
  obtain ⟨hid, hmem, -⟩ := (h.index pair' book' hbook').listed _ x hx
  have hresting := ((h.queue.books pair' book' hbook').side _).resting_queue hmem
  have hresting' := h.queue.books.resting_queue hr
  rw [← hresting.pair, ← hresting'.pair]
  exact h.pair_of_id hfree hresting.placed hresting'.placed hid

/-- **An order that is first of its ID, and that the index has, is cancelled.** -/
theorem IndexInv.cancelsExactly (hcounted : Conserved me) (hfree : CollisionFree P me.orders)
    (hindex : (me.getOrCreateBook pair).orderIndex (me.orders.get r).id = some r)
    (hfirst : FirstOfID me.orders ((me.getOrCreateBook pair).queue b) r) :
    CancelsExactly P me r := by
  have hresting := h.queue.books.resting_queue hr
  obtain ⟨book, hbook⟩ : ∃ book, me.books pair = some book := by
    cases hbook : me.books pair with
    | some book => exact ⟨book, rfl⟩
    | none =>
      rw [MatchingEngine.getOrCreateBook, hbook] at hindex
      cases hindex
  rw [getOrCreateBook_of_some hbook] at hindex
  intro visit hvisit
  rw [hresting.pair] at hvisit
  have hstatus := ((h.index pair book hbook).listed _ r hindex).2.2
  have hunfilled : (me.orders.get r).status ≠ .filled := fun hfilled =>
    hresting.left.ne' ((hcounted.status r hresting.placed).mp hfilled)
  have hqueue (pair' : TradingPair) (c : Bool) :
      ((me.withdrawOrder (me.orders.get r).id pair book r).getOrCreateBook pair').queue c =
        ((me.getOrCreateBook pair').queue c).erase r := by
    rw [queue_withdrawOrder h.queue.books hbook hindex]
    split
    next hthere =>
      obtain ⟨rfl, hc⟩ := hthere
      obtain rfl : b = c := hresting.buys.symm.trans hc
      exact (h.queue.eraseP_eq_erase_iff hr).mpr hfirst
    next hthere =>
      refine (erase_of_not_mem fun hmem => hthere ?_).symm
      have hresting' := h.queue.books.resting_queue hmem
      exact ⟨hresting'.pair.symm.trans hresting.pair, hresting'.buys⟩
  refine ⟨me.withdrawOrder (me.orders.get r).id pair book r, ?_, rfl, hqueue, fun calls => ?_⟩
  · rw [cancelOrder_of_index hbook hindex (h.orderIndex_of_ne hr hfree) hvisit, cancelInBook,
      if_neg (not_not.mpr rfl), if_neg (not_or.mpr ⟨hunfilled, hstatus⟩)]
  · have hgone : Gone r me.fills.length (me.withdrawOrder (me.orders.get r).id pair book r) := by
      refine ⟨h.queue.withdrawOrder hbook, hresting.placed, fun pair' c hmem => ?_, le_rfl, ?_⟩
      · rw [hqueue] at hmem
        exact (h.queue.nodup_queue pair' c).not_mem_erase hmem
      · intro f hf
        rw [show (me.withdrawOrder (me.orders.get r).id pair book r).fills = me.fills from rfl,
          drop_length] at hf
        cases hf
    exact (hgone.afterCalls calls).fills

/-- **And no other.** -/
theorem IndexInv.of_cancelsExactly
    (hcancels : CancelsExactly P me r) :
    (me.getOrCreateBook pair).orderIndex (me.orders.get r).id = some r ∧
      FirstOfID me.orders ((me.getOrCreateBook pair).queue b) r := by
  have hresting := h.queue.books.resting_queue hr
  obtain ⟨me', hok, horders, hqueue, -⟩ := hcancels [pair] (by simp [hresting.pair])
  obtain ⟨pair', book, r', hbook, hindex, -, rfl⟩ := cancelOrder_eq_ok hok
  obtain ⟨-, hmem, hstatus⟩ := (h.index pair' book hbook).listed _ r' hindex
  -- the order that gets the status is the one that should
  obtain rfl : r' = r := by
    by_contra hne
    have hget := congrArg (fun orders => (orders.get r').status) horders
    simp only [MatchingEngine.withdrawOrder, Heap.get_modify_self, Heap.get_modify_of_ne _ _ hne]
      at hget
    exact hstatus hget.symm
  have hthere := ((h.queue.books pair' book hbook).side _).resting_queue hmem
  obtain rfl : pair' = pair := hthere.pair.symm.trans hresting.pair
  refine ⟨(getOrCreateBook_of_some hbook).symm ▸ hindex, ?_⟩
  have hleft := hqueue pair' b
  rw [queue_withdrawOrder h.queue.books hbook hindex, if_pos ⟨rfl, hresting.buys⟩] at hleft
  exact (h.queue.eraseP_eq_erase_iff hr).mp hleft

end

/-- **Which orders can be cancelled.**  After any calls and for every order that rests in a book, if
no digests collide: those that the index has under their ID and that are the first of their ID at
their price; among them all whose ID no other order has. -/
theorem cancels_exactly_iff (P : Platform) (calls : List Call) (pair : TradingPair) (b : Bool)
    (r : OrderRef) (hr : r ∈ ((afterCalls P calls).getOrCreateBook pair).queue b)
    (hfree : CollisionFree P (afterCalls P calls).orders) :
    let me := afterCalls P calls
    (CancelsExactly P me r ↔ (me.getOrCreateBook pair).orderIndex (me.orders.get r).id = some r ∧
      FirstOfID me.orders ((me.getOrCreateBook pair).queue b) r) ∧
    (UniqueID me.orders r → CancelsExactly P me r) := by
  intro me
  have hinv := indexInv_afterCalls P calls
  have hcounted := conserved_afterCalls P calls
  refine ⟨⟨hinv.of_cancelsExactly hr, fun h => hinv.cancelsExactly hr hcounted hfree h.1 h.2⟩,
    fun hunique => ?_⟩
  refine hinv.cancelsExactly hr hcounted hfree ?_ (hunique.firstOfID hinv.queue.books)
  exact (hinv.getOrCreateBook pair).complete b r hr hunique

/-- Two bids of different owners at one price. -/
def twoBids : List Call :=
  [.placeOrder 7 ⟨1, 2⟩ orderSideBuy (some 5) (some 3) 0 0,
    .placeOrder 8 ⟨1, 2⟩ orderSideBuy (some 5) (some 2) 0 0]

/-- The first can be cancelled, and the second stays. -/
theorem cancels_exactly_bid :
    ((afterCalls plainPlatform twoBids).getOrCreateBook ⟨1, 2⟩).queue true = [0, 1] ∧
    CancelsExactly plainPlatform (afterCalls plainPlatform twoBids) 0 := by
  have hqueue : ((afterCalls plainPlatform twoBids).getOrCreateBook ⟨1, 2⟩).queue true =
      [0, 1] := by
    decide +kernel
  have hrests : 0 ∈ ((afterCalls plainPlatform twoBids).getOrCreateBook ⟨1, 2⟩).queue true := by
    rw [hqueue]
    exact mem_cons_self
  refine ⟨hqueue, (cancels_exactly_iff plainPlatform twoBids ⟨1, 2⟩ true 0 hrests ?_).2 ?_⟩
  · unfold CollisionFree
    decide +kernel
  · unfold UniqueID
    decide +kernel

/-- The same bid twice in a block. -/
def twinBids : List Call :=
  [.placeOrder 7 ⟨1, 2⟩ orderSideBuy (some 5) (some 3) 0 0,
    .placeOrder 7 ⟨1, 2⟩ orderSideBuy (some 5) (some 3) 0 0]

/-- **The second bid cannot be cancelled.**  It gets the status, but the first leaves the book; then
nothing can be cancelled any more, and a sale is filled by the bid that was. -/
theorem twin_trades_on :
    let me := afterCalls plainPlatform twinBids
    let id := (me.orders.get 1).id
    CollisionFree plainPlatform me.orders ∧ (me.getOrCreateBook ⟨1, 2⟩).queue true = [0, 1] ∧
    ¬ CancelsExactly plainPlatform me 1 ∧
    ∃ me', me.cancelOrder id 7 [⟨1, 2⟩] = .ok me' ∧ (me'.orders.get 1).status = .cancelled ∧
      (me'.getOrCreateBook ⟨1, 2⟩).queue true = [1] ∧ (me'.cancelOrder id 7 [⟨1, 2⟩]).isOk = false ∧
      (me'.afterCall plainPlatform
        (.placeOrder 8 ⟨1, 2⟩ orderSideSell (some 5) (some 3) 0 0)).fills.map
        (fun f => (f.maker, f.trade.amount)) = [(1, 3)] := by
  intro me id
  have hqueue : (me.getOrCreateBook ⟨1, 2⟩).queue true = [0, 1] := by decide +kernel
  have howner : (me.orders.get 1).owner = 7 ∧ (me.orders.get 1).pair = ⟨1, 2⟩ := by decide +kernel
  have hafter : (me.cancelOrder id 7 [⟨1, 2⟩]).toOption.map (fun me' => ((me'.orders.get 1).status,
      (me'.getOrCreateBook ⟨1, 2⟩).queue true, (me'.cancelOrder id 7 [⟨1, 2⟩]).isOk,
      (me'.afterCall plainPlatform
        (.placeOrder 8 ⟨1, 2⟩ orderSideSell (some 5) (some 3) 0 0)).fills.map
        fun f => (f.maker, f.trade.amount))) = some (.cancelled, [1], false, [(1, 3)]) := by
    decide +kernel
  have hfree : CollisionFree plainPlatform me.orders := by
    unfold CollisionFree
    decide +kernel
  cases hcancel : me.cancelOrder id 7 [⟨1, 2⟩] with
  | error e =>
    rw [hcancel] at hafter
    cases hafter
  | ok me' =>
    rw [hcancel] at hafter
    have hfacts := some.inj hafter
    simp only [Prod.mk.injEq] at hfacts
    refine ⟨hfree, hqueue, fun hcancels => ?_, me', rfl, hfacts⟩
    obtain ⟨me'', hok, -, hleft, -⟩ := hcancels [⟨1, 2⟩] (by simp [howner.2])
    obtain rfl := Except.ok.inj (hcancel.symm.trans hok)
    have hwrong := hleft ⟨1, 2⟩ true
    rw [hqueue, hfacts.2.1] at hwrong
    exact absurd hwrong (by decide)

end ProbeChain.Superlight
