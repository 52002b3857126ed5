/-
# The books of the exchange stay in order

Whatever is asked of the engine, and whatever the IDs of the orders are, in every book the levels
are sorted and not empty, an order rests at its own price with something left of it, and no bid
reaches an ask.

Both sides of a book are treated as one: `levels b` are the bids for `b = true` and the asks for
`b = false`, and `less b` is the order they are sorted by.  The other side is `!b`, and its order
also says when a level of this side does not reach it.

An order of a third side is a sale that accepts every price.  It leaves no crossed book behind: it
rests only after it has used up all the bids.
-/
import ProbeChain.Superlight.Engine

namespace ProbeChain.Superlight

open Option List Function MatchingEngine Superlight.Order PriceLevel

/-! ## 1. The two sides of a book -/

/-- The order in which the levels of a side stand. -/
def PriceLevel.less : Bool → PriceLevel → PriceLevel → Bool
  | true => above
  | false => below

def OrderBook.levels (ob : OrderBook) : Bool → List PriceLevel
  | true => ob.bids
  | false => ob.asks

/-- Whether an order is a purchase. -/
def Order.buys (o : Order) : Bool := o.side = orderSideBuy

namespace PriceLevel

variable {b : Bool} {x y z : PriceLevel}

theorem less_trans (hxy : less b x y = true) (hyz : less b y z = true) : less b x z = true := by
  cases b <;> simp only [less, above, below, decide_eq_true_eq] at * <;> omega

theorem ne_of_less (h : less b x y = true) : x.price ≠ y.price := by
  cases b <;> simp only [less, above, below, decide_eq_true_eq] at h <;> omega

theorem less_of_ne (h : less b y x = false) (hne : x.price ≠ y.price) : less b x y = true := by
  cases b <;> simp only [less, above, below, decide_eq_true_eq, decide_eq_false_iff_not] at * <;>
    omega

theorem not_less_trans (hyx : less b y x = false) (hzy : less b z y = false) :
    less b z x = false := by
  cases b <;> simp only [less, above, below, decide_eq_false_iff_not] at * <;> omega

theorem not_less_total (x y : PriceLevel) : less b y x = false ∨ less b x y = false := by
  cases b <;> simp only [less, above, below, decide_eq_false_iff_not] <;> omega

/-- Only the prices count. -/
theorem less_congr {x' y' : PriceLevel} (hx : x'.price = x.price) (hy : y'.price = y.price) :
    less b x' y' = less b x y := by
  cases b <;> simp only [less, above, below, hx, hy]

/-- What the other side is for one side, it is for the other. -/
theorem less_not (x y : PriceLevel) : less (!b) x y = less b y x := by
  cases b <;> rfl

end PriceLevel

/-- An order does not reach a level that it refuses. -/
theorem less_of_refuses {o : Order} {level : PriceLevel} {b : Bool} (hb : o.buys = !b)
    (h : o.refuses level.price = true) : less b ⟨o.price, []⟩ level = true := by
  rw [refuses, decide_eq_true_iff] at h
  rcases h with ⟨hside, hprice⟩ | ⟨hside, hprice⟩
  · rw [buys, hside] at hb
    cases b with
    | true => cases hb
    | false => exact decide_eq_true hprice
  · rw [buys, hside] at hb
    cases b with
    | true => exact decide_eq_true hprice
    | false => cases hb

/-! ## 2. The invariant -/

/-- What an order is like that may rest at the price, among the purchases or the sales of the
pair. -/
structure Resting (orders : Heap Order) (pair : TradingPair) (b : Bool) (price : Int)
    (r : OrderRef) : Prop where
  placed : r < orders.size
  pair : (orders.get r).pair = pair
  buys : (orders.get r).buys = b
  price : (orders.get r).price = price
  nonneg : 0 ≤ (orders.get r).filled
  left : 0 < (orders.get r).remaining

/-- The levels of one side. -/
structure SideInv (orders : Heap Order) (pair : TradingPair) (b : Bool)
    (levels : List PriceLevel) : Prop where
  sorted : levels.Pairwise fun x y => less b x y = true
  nodup : ∀ level ∈ levels, level.orders.Nodup
  resting : ∀ level ∈ levels, ∀ r ∈ level.orders, Resting orders pair b level.price r

/-- Two sides of a book, none of which reaches the other. -/
structure BookInv (orders : Heap Order) (pair : TradingPair) (ob : OrderBook) : Prop where
  side : ∀ b, SideInv orders pair b (ob.levels b)
  ne_nil : ∀ b, ∀ level ∈ ob.levels b, level.orders ≠ []
  apart : ∀ b, ∀ x ∈ ob.levels b, ∀ y ∈ ob.levels !b, less (!b) x y = true

theorem Order.buys_congr {o o' : Order} (h : o'.terms = o.terms) : o'.buys = o.buys := by
  simp only [terms, Prod.mk.injEq] at h
  rw [buys, buys, h.2.1]

/-- The part of an order that the invariant is about. -/
def Order.standing (o : Order) : (TradingPair × OrderSide × Int × Int) × Int := (o.terms, o.filled)

theorem Order.remaining_congr {o o' : Order} (h : o'.standing = o.standing) :
    o'.remaining = o.remaining := by
  have hamount : o'.amount = o.amount := congrArg (·.1.2.2.2) h
  have hfilled : o'.filled = o.filled := congrArg (·.2) h
  rw [remaining, remaining, hamount, hfilled]

theorem Order.standing_setStatus (status : OrderStatus) (o : Order) :
    (o.setStatus status).standing = o.standing :=
  rfl

variable {orders orders' : Heap Order} {pair : TradingPair} {b : Bool} {levels : List PriceLevel}

theorem Resting.of_terms {price : Int} {r : OrderRef} (h : Resting orders pair b price r)
    (hsize : orders.size ≤ orders'.size) (hterms : (orders'.get r).terms = (orders.get r).terms)
    (hnonneg : 0 ≤ (orders'.get r).filled) (hleft : 0 < (orders'.get r).remaining) :
    Resting orders' pair b price r where
  placed := h.placed.trans_le hsize
  pair := (congrArg (·.1) hterms).trans h.pair
  buys := (buys_congr hterms).trans h.buys
  price := (congrArg (·.2.2.1) hterms).trans h.price
  nonneg := hnonneg
  left := hleft

theorem Resting.congr {price : Int} {r : OrderRef} (h : Resting orders pair b price r)
    (hsize : orders.size ≤ orders'.size)
    (hsame : (orders'.get r).standing = (orders.get r).standing) :
    Resting orders' pair b price r := by
  have hfilled : (orders'.get r).filled = (orders.get r).filled := congrArg (·.2) hsame
  refine h.of_terms hsize (congrArg (·.1) hsame) ?_ ?_
  · rw [hfilled]
    exact h.nonneg
  · rw [remaining_congr hsame]
    exact h.left

/-- What happens to other orders does not matter. -/
theorem SideInv.congr (h : SideInv orders pair b levels) (hsize : orders.size ≤ orders'.size)
    (hsame : ∀ {price : Int} {r : OrderRef}, Resting orders pair b price r →
      (orders'.get r).standing = (orders.get r).standing) : SideInv orders' pair b levels where
  sorted := h.sorted
  nodup := h.nodup
  resting := fun level hlevel r hr =>
    (h.resting level hlevel r hr).congr hsize (hsame (h.resting level hlevel r hr))

theorem BookInv.congr {ob : OrderBook} (h : BookInv orders pair ob)
    (hsize : orders.size ≤ orders'.size)
    (hsame : ∀ {b : Bool} {price : Int} {r : OrderRef}, Resting orders pair b price r →
      (orders'.get r).standing = (orders.get r).standing) : BookInv orders' pair ob where
  side := fun b => (h.side b).congr hsize hsame
  ne_nil := h.ne_nil
  apart := h.apart

theorem bookInv_new (orders : Heap Order) (pair : TradingPair) :
    BookInv orders pair { pair := pair } where
  side := fun b => by
    cases b <;> exact ⟨List.Pairwise.nil, by simp [OrderBook.levels], by simp [OrderBook.levels]⟩
  ne_nil := fun b => by cases b <;> simp [OrderBook.levels]
  apart := fun b => by cases b <;> simp [OrderBook.levels]

/-! ## 3. Matching -/

/-- The levels an order is matched against, while the loops run.  Everything else is as it was at
the start. -/
structure Clearing (start : Heap Order) (taker : OrderRef) (pair : TradingPair) (b : Bool)
    (allowed : Int → Prop) (levels : List PriceLevel) (m : Matching) : Prop where
  side : SideInv m.orders pair b levels
  allowed : ∀ level ∈ levels, allowed level.price
  size : m.orders.size = start.size
  terms : ∀ r, (m.orders.get r).terms = (start.get r).terms
  others : ∀ r ≠ taker, (start.get r).pair ≠ pair ∨ (start.get r).buys ≠ b →
    m.orders.get r = start.get r
  nonneg : 0 ≤ (m.orders.get taker).filled
  left : 0 ≤ (m.orders.get taker).remaining

variable {P : Platform} {start : Heap Order} {taker : OrderRef} {timestamp blockNum : UInt64}
  {allowed : Int → Prop}
  {m : Matching} {price : Int}

/-- The order itself is on the other side. -/
theorem Clearing.ne_taker (htaker : (start.get taker).buys = !b)
    (h : Clearing start taker pair b allowed levels m) {r : OrderRef}
    (hr : Resting m.orders pair b price r) : r ≠ taker := by
  rintro rfl
  have hbuys := hr.buys
  rw [buys_congr (h.terms r), htaker] at hbuys
  exact Bool.not_ne_self b hbuys

/-- A trade that does not fill the maker leaves it where it is. -/
theorem Resting.trade {level : Int} {maker : OrderRef} (hne : maker ≠ taker)
    (hpos : 0 < (m.orders.get taker).remaining) (h : Resting m.orders pair b level maker)
    (hfilled : ((trade P taker timestamp blockNum price maker m).orders.get maker).isFilled ≠
      true) :
    Resting (trade P taker timestamp blockNum price maker m).orders pair b level maker := by
  refine h.of_terms le_rfl (terms_trade maker) ?_ ?_
  · rw [trade_get_maker hne]
    exact add_nonneg h.nonneg (fillAmount_pos hpos h.left).le
  · rwa [Ne, isFilled_iff, not_le] at hfilled

/-- **One trade.** -/
theorem Clearing.trade (htaker : (start.get taker).buys = !b) :
    KeptByTrade P taker timestamp blockNum (Clearing start taker pair b allowed) := by
  intro price maker orders rest m h hpos _
  have hmaker := h.side.resting _ mem_cons_self maker mem_cons_self
  have hne : maker ≠ taker := h.ne_taker htaker hmaker
  have hnodup := nodup_cons.mp (h.side.nodup _ mem_cons_self)
  have hsorted := pairwise_cons.mp h.side.sorted
  intro m'
  -- an order other than the two rests as it did
  have hkept : ∀ {p : Int} {r : OrderRef}, r ≠ maker → Resting m.orders pair b p r →
      Resting m'.orders pair b p r := by
    intro p r hrm hr
    refine hr.congr le_rfl ?_
    rw [trade_get_of_ne hrm (h.ne_taker htaker hr)]
  have hqueue : ∀ r ∈ orders, Resting m'.orders pair b price r := fun r hr =>
    hkept (ne_of_mem_of_not_mem hr hnodup.1)
      (h.side.resting _ mem_cons_self r (mem_cons_of_mem _ hr))
  have hrest : ∀ level ∈ rest, ∀ r ∈ level.orders, Resting m'.orders pair b level.price r := by
    intro level hlevel r hr
    have hold := h.side.resting level (mem_cons_of_mem _ hlevel) r hr
    refine hkept ?_ hold
    -- the maker rests at another price
    rintro rfl
    exact ne_of_less (hsorted.1 level hlevel) (hmaker.price.symm.trans hold.price)
  have hlevel : ((if (m'.orders.get maker).isFilled then orders else maker :: orders).Nodup) ∧
      ∀ r ∈ (if (m'.orders.get maker).isFilled then orders else maker :: orders),
        Resting m'.orders pair b price r := by
    split
    · exact ⟨hnodup.2, hqueue⟩
    next hfilled =>
      exact ⟨nodup_cons.mpr hnodup, forall_mem_cons.mpr ⟨hmaker.trade hne hpos hfilled, hqueue⟩⟩
  refine
    { side := ⟨pairwise_cons.mpr ⟨fun y hy => ?_, hsorted.2⟩, ?_, ?_⟩
      allowed := forall_mem_cons.mpr (forall_mem_cons.mp h.allowed)
      size := h.size
      terms := fun r => (terms_trade r).trans (h.terms r)
      others := fun r hr hother => ?_
      nonneg := ?_
      left := ?_ }
  · rw [← hsorted.1 y hy]
    exact less_congr rfl rfl
  · exact forall_mem_cons.mpr ⟨hlevel.1, (forall_mem_cons.mp h.side.nodup).2⟩
  · exact forall_mem_cons.mpr ⟨hlevel.2, hrest⟩
  · have hrm : r ≠ maker := by
      rintro rfl
      rcases hother with hpair | hbuys
      · exact hpair ((congrArg (·.1) (h.terms r)).symm.trans hmaker.pair)
      · exact hbuys ((buys_congr (h.terms r)).symm.trans hmaker.buys)
    rw [trade_get_of_ne hrm hr, h.others r hr hother]
  · rw [trade_get_taker hne.symm]
    exact add_nonneg h.nonneg (fillAmount_pos hpos hmaker.left).le
  · rw [trade_get_taker hne.symm, remaining_addFilled, sub_nonneg]
    exact (fillAmount_le _ _).1

theorem Clearing.drop {rest : List PriceLevel}
    (h : Clearing start taker pair b allowed (⟨price, []⟩ :: rest) m) :
    Clearing start taker pair b allowed rest m :=
  { h with
    side :=
      { sorted := (pairwise_cons.mp h.side.sorted).2
        nodup := (forall_mem_cons.mp h.side.nodup).2
        resting := (forall_mem_cons.mp h.side.resting).2 }
    allowed := (forall_mem_cons.mp h.allowed).2 }

/-- **Both loops.** -/
theorem Clearing.matchLevels (htaker : (start.get taker).buys = !b)
    (h : Clearing start taker pair b allowed levels m) :
    Clearing start taker pair b allowed (matchLevels P taker timestamp blockNum levels m).1
      (matchLevels P taker timestamp blockNum levels m).2 :=
  matchLevels_inv (Clearing.trade htaker) Clearing.drop h

/-! ## 4. Adding and removing an order -/

variable {levels' : List PriceLevel} {level : PriceLevel} {r : OrderRef}

theorem sorted_iff : (levels.Pairwise fun x y => PriceLevel.less b x y = true) ↔
    (levels.map PriceLevel.price).Pairwise fun p q => PriceLevel.less b ⟨p, []⟩ ⟨q, []⟩ = true := by
  rw [pairwise_map]
  cases b <;> rfl

theorem SideInv.sublist (h : SideInv orders pair b levels) (hsub : levels'.Sublist levels) :
    SideInv orders pair b levels' where
  sorted := h.sorted.sublist hsub
  nodup := fun level hlevel => h.nodup level (hsub.subset hlevel)
  resting := fun level hlevel => h.resting level (hsub.subset hlevel)

theorem mem_replace {before after : List PriceLevel} {level' x : PriceLevel}
    (h : x ∈ before ++ level' :: after) : x = level' ∨ x ∈ before ++ level :: after := by
  rcases mem_append.mp h with h | h
  · exact .inr (mem_append_left _ h)
  · exact (mem_cons.mp h).imp_right fun h => mem_append_right _ (mem_cons_of_mem _ h)

/-- A level gets other orders. -/
theorem SideInv.replace {before after : List PriceLevel}
    (h : SideInv orders pair b (before ++ level :: after)) {queue : List OrderRef}
    (hnodup : queue.Nodup) (hresting : ∀ r ∈ queue, Resting orders pair b level.price r) :
    SideInv orders pair b (before ++ { level with orders := queue } :: after) where
  sorted := by
    rw [sorted_iff]
    have hsorted := sorted_iff.mp h.sorted
    rw [map_append, map_cons] at hsorted ⊢
    exact hsorted
  nodup := by
    intro x hx
    rcases mem_replace hx with rfl | hx
    · exact hnodup
    · exact h.nodup x hx
  resting := by
    intro x hx
    rcases mem_replace hx with rfl | hx
    · exact hresting
    · exact h.resting x hx

theorem joinLevel_eq_some : ∀ {levels levels' : List PriceLevel},
    joinLevel r price levels = some levels' →
    ∃ before level after, levels = before ++ level :: after ∧
      level.price = price ∧ levels' = before ++
        { level with orders := level.orders ++ [r] } :: after
  | [], _, h => by cases h
  | level :: rest, levels', h => by
    rw [joinLevel] at h
    split at h
    next hprice =>
      cases h
      exact ⟨[], level, rest, rfl, hprice, rfl⟩
    · obtain ⟨rest', hrest, rfl⟩ := map_eq_some_iff.mp h
      obtain ⟨before, l, after, rfl, hprice, rfl⟩ := joinLevel_eq_some hrest
      exact ⟨level :: before, l, after, rfl, hprice, rfl⟩

theorem price_ne_of_joinLevel : ∀ {levels : List PriceLevel},
    joinLevel r price levels = none → ∀ level ∈ levels, level.price ≠ price
  | [], _, _, hmem => absurd hmem not_mem_nil
  | level :: rest, h, x, hx => by
    rw [joinLevel] at h
    split at h
    · cases h
    next hprice =>
      rcases mem_cons.mp hx with rfl | hx
      · exact hprice
      · exact price_ne_of_joinLevel (map_eq_none_iff.mp h) x hx

theorem sideInv_addToLevels (S : LevelSort) (h : SideInv orders pair b levels)
    (hr : Resting orders pair b price r) (hfresh : ∀ level ∈ levels, r ∉ level.orders) :
    SideInv orders pair b (addToLevels S (less b) r price levels) := by
  unfold addToLevels
  split
  next hjoin =>
    obtain ⟨before, level, after, rfl, hprice, rfl⟩ := joinLevel_eq_some hjoin
    have hlevel : level ∈ before ++ level :: after := mem_append_right _ mem_cons_self
    refine h.replace ?_ ?_
    · refine (h.nodup level hlevel).append (nodup_singleton r) ?_
      exact disjoint_singleton.mpr (hfresh level hlevel)
    · intro x hx
      rcases mem_append.mp hx with hx | hx
      · exact h.resting level hlevel x hx
      · rw [mem_singleton.mp hx, hprice]
        exact hr
  next hjoin =>
    let new : PriceLevel := { price := price, orders := [r] }
    have hperm := S.perm (less b) (levels ++ [new])
    have hmem : ∀ {level : PriceLevel}, level ∈ S.sort (less b) (levels ++ [new]) →
        level ∈ levels ∨ level = new := by
      intro level hlevel
      exact (mem_append.mp (hperm.mem_iff.mp hlevel)).imp_right mem_singleton.mp
    -- no two levels have the same price, so that the order is strict
    have hdistinct : (levels ++ [new]).Pairwise fun x y => x.price ≠ y.price := by
      refine pairwise_append.mpr ⟨h.sorted.imp ne_of_less, pairwise_singleton _ _, ?_⟩
      intro x hx y hy
      rw [mem_singleton.mp hy]
      exact price_ne_of_joinLevel hjoin x hx
    have hne := (hperm.pairwise_iff fun h => Ne.symm h).mpr hdistinct
    have hsorted := S.sorted (less b) (levels ++ [new])
      (fun _ _ _ => not_less_trans) not_less_total
    refine ⟨hsorted.imp₂ (fun _ _ => less_of_ne) hne, ?_, ?_⟩
    · intro level hlevel
      rcases hmem hlevel with hlevel | rfl
      · exact h.nodup level hlevel
      · exact nodup_singleton r
    · intro level hlevel
      rcases hmem hlevel with hlevel | rfl
      · exact h.resting level hlevel
      · exact forall_mem_singleton.mpr hr

/-- A level that is there afterwards was there before, or is the new one. -/
theorem mem_addToLevels (S : LevelSort) {less : PriceLevel → PriceLevel → Bool}
    (h : level ∈ addToLevels S less r price levels) :
    level ∈ levels ∨ level.price = price ∧ level.orders ≠ [] := by
  unfold addToLevels at h
  split at h
  next hjoin =>
    obtain ⟨before, l, after, rfl, hprice, rfl⟩ := joinLevel_eq_some hjoin
    rcases mem_replace h with rfl | h
    · exact .inr ⟨hprice, by simp⟩
    · exact .inl h
  · rcases mem_append.mp ((S.perm _ _).mem_iff.mp h) with h | h
    · exact .inl h
    · rw [mem_singleton.mp h]
      exact .inr ⟨rfl, by simp⟩

theorem removeFromLevels_cases (orders : Heap Order) (id : Hash) (price : Int) :
    ∀ levels : List PriceLevel,
    removeFromLevels orders id price levels = levels ∨
    ∃ before level after, levels = before ++ level :: after ∧
      (removeFromLevels orders id price levels = before ++ after ∨
        ∃ queue, queue ≠ [] ∧ queue.Sublist level.orders ∧
          removeFromLevels orders id price levels =
            before ++ { level with orders := queue } :: after)
  | [] => .inl rfl
  | level :: rest => by
    rw [removeFromLevels]
    split
    · refine .inr ⟨[], level, rest, rfl, ?_⟩
      dsimp only
      split
      · exact .inl rfl
      next hleft =>
        exact .inr ⟨_, hleft, eraseP_sublist, rfl⟩
    · rcases removeFromLevels_cases orders id price rest with h | ⟨before, l, after, hrest, h⟩
      · exact .inl (congrArg (level :: ·) h)
      · refine .inr ⟨level :: before, l, after, congrArg (level :: ·) hrest, ?_⟩
        rcases h with h | ⟨queue, hqueue, hsub, h⟩
        · exact .inl (congrArg (level :: ·) h)
        · exact .inr ⟨queue, hqueue, hsub, congrArg (level :: ·) h⟩

theorem sideInv_removeFromLevels (h : SideInv orders pair b levels) (id : Hash) (price : Int) :
    SideInv orders pair b (removeFromLevels orders id price levels) := by
  rcases removeFromLevels_cases orders id price levels with
    heq | ⟨before, level, after, rfl, heq | ⟨queue, -, hsub, heq⟩⟩
  · rwa [heq]
  · rw [heq]
    exact h.sublist ((sublist_cons_self level after).append_left before)
  · rw [heq]
    have hlevel : level ∈ before ++ level :: after := mem_append_right _ mem_cons_self
    exact h.replace ((h.nodup level hlevel).sublist hsub) fun r hr =>
      h.resting level hlevel r (hsub.subset hr)

/-- A level that is there afterwards was there before, perhaps with more orders. -/
theorem mem_removeFromLevels {id : Hash}
    (hne : ∀ level ∈ levels, level.orders ≠ [])
    (h : level ∈ removeFromLevels orders id price levels) :
    level.orders ≠ [] ∧ ∃ old ∈ levels, level.price = old.price := by
  rcases removeFromLevels_cases orders id price levels with
    heq | ⟨before, l, after, rfl, heq | ⟨queue, hqueue, -, heq⟩⟩
  · rw [heq] at h
    exact ⟨hne level h, level, h, rfl⟩
  · rw [heq] at h
    have hmem : level ∈ before ++ l :: after :=
      ((sublist_cons_self l after).append_left before).subset h
    exact ⟨hne level hmem, level, hmem, rfl⟩
  · rw [heq] at h
    rcases mem_replace h with rfl | h
    · exact ⟨hqueue, l, mem_append_right _ mem_cons_self, rfl⟩
    · exact ⟨hne level h, level, h, rfl⟩

/-! ## 5. One book -/

variable {ob : OrderBook}

/-- It is enough to look at a book from one side. -/
theorem BookInv.of_side (b : Bool) (hside : SideInv orders pair b (ob.levels b))
    (hother : SideInv orders pair (!b) (ob.levels !b))
    (hne : ∀ level ∈ ob.levels b, level.orders ≠ [])
    (hneOther : ∀ level ∈ ob.levels !b, level.orders ≠ [])
    (hapart : ∀ x ∈ ob.levels b, ∀ y ∈ ob.levels !b, less (!b) x y = true) :
    BookInv orders pair ob := by
  have hback : ∀ x ∈ ob.levels !b, ∀ y ∈ ob.levels !!b, less (!!b) x y = true := by
    intro x hx y hy
    rw [less_not]
    rw [Bool.not_not] at hy
    exact hapart y hy x hx
  refine ⟨fun c => ?_, fun c => ?_, fun c => ?_⟩ <;> by_cases hc : c = b
  · rwa [hc]
  · rwa [Bool.eq_not.mpr hc]
  · rwa [hc]
  · rwa [Bool.eq_not.mpr hc]
  · rwa [hc]
  · rwa [Bool.eq_not.mpr hc]

/-- Nothing reaches a side if it does not reach the first level. -/
theorem less_of_head {x : PriceLevel}
    (hsorted : levels.Pairwise fun x y => less b x y = true)
    (hhead : ∀ level ∈ levels.head?, less b x level = true) :
    ∀ level ∈ levels, less b x level = true := by
  cases levels with
  | nil => exact fun _ h => absurd h not_mem_nil
  | cons level rest =>
    have hfirst := hhead level rfl
    refine forall_mem_cons.mpr ⟨hfirst, fun y hy => ?_⟩
    exact less_trans hfirst ((pairwise_cons.mp hsorted).1 y hy)

variable (ob) in
theorem levels_addOrder (S : LevelSort) (r : OrderRef) (hb : (orders.get r).buys = b) :
    (ob.addOrder orders S r).levels b =
      addToLevels S (less b) r (orders.get r).price (ob.levels b) ∧
    (ob.addOrder orders S r).levels (!b) = ob.levels !b := by
  subst hb
  unfold OrderBook.addOrder buys
  split
  next hbuy =>
    rw [decide_eq_true hbuy]
    exact ⟨rfl, rfl⟩
  next hsell =>
    rw [decide_eq_false hsell]
    exact ⟨rfl, rfl⟩

theorem orderIndex_addOrder (ob : OrderBook) (S : LevelSort) (r : OrderRef) :
    (ob.addOrder orders S r).orderIndex = update ob.orderIndex (orders.get r).id (some r) := by
  unfold OrderBook.addOrder
  split <;> rfl

theorem BookInv.addOrder (S : LevelSort) (h : BookInv orders pair ob)
    (hr : Resting orders pair b (orders.get r).price r)
    (hfresh : ∀ level ∈ ob.levels b, r ∉ level.orders)
    (hapart : ∀ y ∈ ob.levels !b, less (!b) ⟨(orders.get r).price, []⟩ y = true) :
    BookInv orders pair (ob.addOrder orders S r) := by
  obtain ⟨hsame, hother⟩ := levels_addOrder ob S r hr.buys
  refine .of_side b ?_ ?_ ?_ ?_ ?_
  · rw [hsame]
    exact sideInv_addToLevels S (h.side b) hr hfresh
  · rw [hother]
    exact h.side !b
  · rw [hsame]
    intro level hlevel
    rcases mem_addToLevels S hlevel with hlevel | ⟨-, hne⟩
    · exact h.ne_nil b level hlevel
    · exact hne
  · rw [hother]
    exact h.ne_nil !b
  · rw [hsame, hother]
    intro x hx y hy
    rcases mem_addToLevels S hx with hx | ⟨hprice, -⟩
    · exact h.apart b x hx y hy
    · rw [← hapart y hy]
      exact less_congr hprice rfl

variable (ob) in
/-- One side of the book is touched at most. -/
theorem levels_removeOrder_cases (orders : Heap Order) (id : Hash) (b : Bool) :
    (ob.removeOrder orders id).levels b = ob.levels b ∨ ∃ id' price,
      (ob.removeOrder orders id).levels b = removeFromLevels orders id' price (ob.levels b) := by
  unfold OrderBook.removeOrder
  split
  · exact .inl rfl
  · dsimp only
    split
    · cases b with
      | true => exact .inr ⟨_, _, rfl⟩
      | false => exact .inl rfl
    · cases b with
      | true => exact .inl rfl
      | false => exact .inr ⟨_, _, rfl⟩

theorem levels_removeOrder (h : BookInv orders pair ob) (id : Hash) (b : Bool) :
    SideInv orders pair b ((ob.removeOrder orders id).levels b) ∧
      ∀ level ∈ (ob.removeOrder orders id).levels b,
        level.orders ≠ [] ∧ ∃ old ∈ ob.levels b, level.price = old.price := by
  rcases levels_removeOrder_cases ob orders id b with heq | ⟨id', price, heq⟩ <;> rw [heq]
  · exact ⟨h.side b, fun level hlevel => ⟨h.ne_nil b level hlevel, level, hlevel, rfl⟩⟩
  · exact ⟨sideInv_removeFromLevels (h.side b) id' price,
      fun _ => mem_removeFromLevels (h.ne_nil b)⟩

theorem BookInv.removeOrder (h : BookInv orders pair ob) (id : Hash) :
    BookInv orders pair (ob.removeOrder orders id) where
  side := fun b => (levels_removeOrder h id b).1
  ne_nil := fun b level hlevel => ((levels_removeOrder h id b).2 level hlevel).1
  apart := by
    intro b x hx y hy
    obtain ⟨-, x', hx', hxprice⟩ := (levels_removeOrder h id b).2 x hx
    obtain ⟨-, y', hy', hyprice⟩ := (levels_removeOrder h id !b).2 y hy
    rw [less_congr hxprice hyprice]
    exact h.apart b x' hx' y' hy'

theorem matchOrder_levels (P : Platform) (timestamp blockNum : UInt64)
    (htaker : (orders.get taker).buys = !b) :
    let result := matchLevels P taker timestamp blockNum (ob.levels b) ⟨orders, ob.orderIndex, []⟩
    (matchOrder P taker timestamp blockNum ob orders).1.levels b = result.1 ∧
    (matchOrder P taker timestamp blockNum ob orders).1.levels (!b) = ob.levels (!b) ∧
    (matchOrder P taker timestamp blockNum ob orders).2 = result.2 := by
  unfold matchOrder
  split
  next hbuy =>
    rw [buys, decide_eq_true hbuy] at htaker
    cases b with
    | true => cases htaker
    | false => exact ⟨rfl, rfl, rfl⟩
  next hsell =>
    rw [buys, decide_eq_false hsell] at htaker
    cases b with
    | true => exact ⟨rfl, rfl, rfl⟩
    | false => cases htaker

theorem matchOrder_orderIndex (P : Platform) (taker : OrderRef) (timestamp blockNum : UInt64)
    (ob : OrderBook) (orders : Heap Order) :
    (matchOrder P taker timestamp blockNum ob orders).1.orderIndex =
      (matchOrder P taker timestamp blockNum ob orders).2.orderIndex := by
  unfold matchOrder
  split <;> rfl

/-! ## 6. The engine -/

def EngineInv (me : MatchingEngine) : Prop :=
  ∀ pair book, me.books pair = some book → BookInv me.orders pair book

theorem standing_restOrder (S : LevelSort) (taker : OrderRef) (book : OrderBook)
    (orders : Heap Order) :
    (restOrder S taker book orders).2.size = orders.size ∧
      ∀ r, ((restOrder S taker book orders).2.get r).standing = (orders.get r).standing := by
  have hmodify (status : OrderStatus) : (orders.modify taker (.setStatus status)).size =
      orders.size ∧ ∀ r, ((orders.modify taker (.setStatus status)).get r).standing =
        (orders.get r).standing :=
    ⟨rfl, Heap.view_modify _ (standing_setStatus _) taker⟩
  unfold restOrder
  dsimp only
  split
  · split
    · exact hmodify _
    · exact ⟨rfl, fun _ => rfl⟩
  · split
    · exact hmodify _
    · exact ⟨rfl, fun _ => rfl⟩

/-- What is left of an order rests in the book. -/
theorem restOrder_book (S : LevelSort) (taker : OrderRef) (book : OrderBook) (orders : Heap Order) :
    (restOrder S taker book orders).1 = if 0 < (orders.get taker).remaining ∧
    (orders.get taker).status ≠ .cancelled then
      book.addOrder (restOrder S taker book orders).2 S taker else book := by
  unfold restOrder
  dsimp only
  split
  · rfl
  · split
    · rfl
    · rfl

/-- What is left of an order rests where no other order is reached. -/
theorem bookInv_restOrder (S : LevelSort) {book : OrderBook} (h : BookInv orders pair book)
    (hplaced : taker < orders.size) (hpair : (orders.get taker).pair = pair)
    (hbuys : (orders.get taker).buys = b) (hnonneg : 0 ≤ (orders.get taker).filled)
    (hfresh : ∀ level ∈ book.levels b, taker ∉ level.orders)
    (hapart : 0 < (orders.get taker).remaining →
      ∀ y ∈ book.levels !b, less (!b) ⟨(orders.get taker).price, []⟩ y = true) :
    BookInv (restOrder S taker book orders).2 pair (restOrder S taker book orders).1 := by
  obtain ⟨hsize, hstanding⟩ := standing_restOrder S taker book orders
  have hkept : BookInv (restOrder S taker book orders).2 pair book :=
    h.congr hsize.ge fun _ => hstanding _
  have hprice : ((restOrder S taker book orders).2.get taker).price = (orders.get taker).price :=
    congrArg (·.1.2.2.1) (hstanding taker)
  rw [restOrder_book]
  split
  next hrests =>
    have hleft := hrests.1
    have hresting : Resting orders pair b (orders.get taker).price taker :=
      ⟨hplaced, hpair, hbuys, rfl, hnonneg, hleft⟩
    have hresting' : Resting (restOrder S taker book orders).2 pair b
        ((restOrder S taker book orders).2.get taker).price taker := by
      rw [hprice]
      exact hresting.congr hsize.ge (hstanding taker)
    refine hkept.addOrder S hresting' hfresh ?_
    rw [hprice]
    exact hapart hleft
  · exact hkept

variable {me : MatchingEngine}

theorem EngineInv.getOrCreateBook (h : EngineInv me) (pair : TradingPair) :
    BookInv me.orders pair (me.getOrCreateBook pair) := by
  unfold MatchingEngine.getOrCreateBook
  cases hbook : me.books pair with
  | none => exact bookInv_new me.orders pair
  | some book => exact h pair book hbook

theorem orders_enterOrder (order : Order) : (me.enterOrder P order).orders =
    (restOrder P.levelSort me.orders.size (me.matched P order).1 (me.matched P order).2.orders).2 :=
  rfl

theorem books_enterOrder_self (order : Order) : (me.enterOrder P order).books order.pair =
    some (restOrder P.levelSort me.orders.size (me.matched P order).1
      (me.matched P order).2.orders).1 :=
  update_self ..

theorem books_enterOrder_of_ne (order : Order) (h : pair ≠ order.pair) :
    (me.enterOrder P order).books pair = me.books pair :=
  update_of_ne h ..

/-- An order that rested before is another than the new one. -/
theorem Resting.get_alloc (order : Order)
    (h : Resting me.orders pair b price r) :
    r ≠ me.orders.size ∧ (me.orders.alloc order).get r = me.orders.get r :=
  ⟨h.placed.ne, Heap.get_alloc_of_lt _ _ h.placed⟩

section
variable {order : Order} (hbuys : order.buys = !b)
include hbuys

variable (P me) in
theorem matched_levels :
    let book := me.getOrCreateBook order.pair
    let result := matchLevels P me.orders.size order.timestamp order.blockNum (book.levels b)
      ⟨me.orders.alloc order, book.orderIndex, []⟩
    (me.matched P order).1.levels b = result.1 ∧
      (me.matched P order).1.levels (!b) = book.levels (!b) ∧ (me.matched P order).2 = result.2 :=
  matchOrder_levels P order.timestamp order.blockNum (by rwa [Heap.get_alloc_self])

variable (h : EngineInv me) (hfresh : order.Fresh)
include h hfresh

omit hbuys in
theorem EngineInv.clearing_start :
    Clearing (me.orders.alloc order) me.orders.size order.pair b
      (fun p => ∀ y ∈ (me.getOrCreateBook order.pair).levels !b, less (!b) ⟨p, []⟩ y = true)
      ((me.getOrCreateBook order.pair).levels b)
      ⟨me.orders.alloc order, (me.getOrCreateBook order.pair).orderIndex, []⟩ := by
  have hbook := h.getOrCreateBook order.pair
  refine ⟨?_, ?_, rfl, fun _ => rfl, fun _ _ _ => rfl, ?_, ?_⟩
  · refine (hbook.side b).congr (Nat.le_succ _) fun hr => ?_
    rw [(hr.get_alloc order).2]
  · intro level hlevel y hy
    rw [← hbook.apart b level hlevel y hy]
    exact less_congr rfl rfl
  · rw [Heap.get_alloc_self, hfresh.filled]
  · rw [Heap.get_alloc_self, remaining, hfresh.filled, sub_zero]
    exact hfresh.amount.le

/-- The loops of a new order. -/
theorem EngineInv.clearing :
    Clearing (me.orders.alloc order) me.orders.size order.pair b
      (fun p => ∀ y ∈ (me.getOrCreateBook order.pair).levels !b, less (!b) ⟨p, []⟩ y = true)
      ((me.matched P order).1.levels b) (me.matched P order).2 := by
  obtain ⟨hlevels, -, hmatching⟩ := matched_levels P me hbuys
  rw [hlevels, hmatching]
  refine (h.clearing_start hfresh).matchLevels ?_
  rwa [Heap.get_alloc_self]

/-- The book after the loops. -/
theorem EngineInv.matched :
    BookInv (me.matched P order).2.orders order.pair (me.matched P order).1 := by
  have hclearing := h.clearing (P := P) hbuys hfresh
  have hbook := h.getOrCreateBook order.pair
  obtain ⟨hlevels, hother, -⟩ := matched_levels P me hbuys
  refine .of_side b hclearing.side ?_ ?_ ?_ ?_
  · rw [hother]
    refine (hbook.side !b).congr (hclearing.size.ge.trans' (Nat.le_succ _)) fun hr => ?_
    obtain ⟨hne, hget⟩ := hr.get_alloc order
    rw [hclearing.others _ hne (.inr ?_), hget]
    rw [hget, hr.buys]
    exact Bool.not_ne_self b
  · rw [hlevels]
    exact matchLevels_ne_nil P _ _ _ (hbook.ne_nil b)
  · rw [hother]
    exact hbook.ne_nil !b
  · rw [hother]
    intro x hx y hy
    rw [← hclearing.allowed x hx y hy]
    exact less_congr rfl rfl

end

/-- **A new order.** -/
theorem EngineInv.enterOrder {order : Order} (h : EngineInv me) (hfresh : order.Fresh) :
    EngineInv (me.enterOrder P order) := by
  obtain ⟨b, hbuys⟩ : ∃ b, order.buys = !b := ⟨!order.buys, (Bool.not_not _).symm⟩
  have hclearing := h.clearing (P := P) hbuys hfresh
  have hterms := hclearing.terms me.orders.size
  rw [Heap.get_alloc_self] at hterms
  intro pair book hbook
  by_cases hpair : pair = order.pair
  · subst hpair
    obtain rfl := some.inj ((books_enterOrder_self order).symm.trans hbook)
    obtain ⟨hlevels, hother, hmatching⟩ := matched_levels P me hbuys
    have hmatched := h.matched (P := P) hbuys hfresh
    rw [orders_enterOrder]
    refine bookInv_restOrder (b := !b) _ hmatched ?_ ?_ ?_ hclearing.nonneg ?_ ?_
    · rw [hclearing.size]
      exact Nat.lt_succ_self _
    · exact congrArg (·.1) hterms
    · rw [buys_congr hterms, hbuys]
    · rw [hother]
      intro level hlevel hmem
      exact absurd (((h.getOrCreateBook _).side _).resting level hlevel _ hmem).placed (lt_irrefl _)
    · intro hleft
      rw [Bool.not_not]
      refine less_of_head hclearing.side.sorted ?_
      rw [hlevels]
      rw [hmatching] at hleft ⊢
      intro level hlevel
      have hexit :=
        (matchLevels_exit P me.orders.size order.timestamp order.blockNum _ _).resolve_left
        (not_le_of_gt hleft)
      refine less_of_refuses ?_ (hexit level hlevel)
      rw [← hmatching, buys_congr hterms, hbuys]
  · have hold : BookInv me.orders pair book := by
      refine h pair book ?_
      rw [← hbook]
      exact (books_enterOrder_of_ne order hpair).symm
    obtain ⟨hsize, hstanding⟩ :=
      standing_restOrder P.levelSort me.orders.size (me.matched P order).1
        (me.matched P order).2.orders
    refine hold.congr ?_ fun hr => ?_
    · exact (hsize.trans hclearing.size).ge.trans' (Nat.le_succ _)
    · obtain ⟨hne, hget⟩ := hr.get_alloc order
      rw [← hget, ← hclearing.others _ hne (.inl ?_)]
      · exact hstanding _
      · rw [hget, hr.pair]
        exact hpair

variable {pair' : TradingPair} {id : Hash} {book : OrderBook}

theorem books_withdrawOrder_self : (me.withdrawOrder id pair book r).books pair =
    some (book.removeOrder (me.withdrawOrder id pair book r).orders id) := update_self ..

theorem books_withdrawOrder_of_ne (hpair : pair' ≠ pair) :
    (me.withdrawOrder id pair book r).books pair' = me.books pair' := update_of_ne hpair ..

theorem books_withdrawOrder_eq_some {book' : OrderBook}
    (h : (me.withdrawOrder id pair book r).books pair' = some book') :
    (pair' = pair ∧ book' = book.removeOrder (me.withdrawOrder id pair book r).orders id) ∨
      (pair' ≠ pair ∧ me.books pair' = some book') := by
  by_cases hpair : pair' = pair
  · subst hpair
    exact .inl ⟨rfl, (some.inj (books_withdrawOrder_self.symm.trans h)).symm⟩
  · exact .inr ⟨hpair, (books_withdrawOrder_of_ne hpair).symm.trans h⟩

/-- **An order is cancelled.** -/
theorem EngineInv.withdrawOrder (h : EngineInv me) (hbook : me.books pair = some book) :
    EngineInv (me.withdrawOrder id pair book r) := by
  intro pair' book' hbook'
  have hkept {pair : TradingPair} {ob : OrderBook} (hob : BookInv me.orders pair ob) :
      BookInv (me.withdrawOrder id pair book r).orders pair ob :=
    hob.congr le_rfl fun _ => Heap.view_modify _ (standing_setStatus _) _ _
  obtain ⟨rfl, rfl⟩ | ⟨-, hbook'⟩ := books_withdrawOrder_eq_some hbook'
  · exact (hkept (h pair' book hbook)).removeOrder id
  · exact hkept (h pair' book' hbook')

/-- **The invariant of the books**, as a reader of the book would put it. -/
structure OrderBook.WellFormed (orders : Heap Order) (ob : OrderBook) : Prop where
  bids_descending : ob.bids.Pairwise fun x y => y.price < x.price
  asks_ascending : ob.asks.Pairwise fun x y => x.price < y.price
  ne_nil : ∀ level ∈ ob.bids ++ ob.asks, level.orders ≠ []
  resting : ∀ level ∈ ob.bids ++ ob.asks, ∀ r ∈ level.orders, r < orders.size ∧
    (orders.get r).price = level.price ∧ 0 ≤ (orders.get r).filled ∧
    (orders.get r).filled < (orders.get r).amount
  uncrossed : ∀ bid ask, ob.bestBid = some bid → ob.bestAsk = some ask → bid < ask

theorem BookInv.wellFormed (h : BookInv orders pair ob) :
    ob.WellFormed orders where
  bids_descending := (h.side true).sorted.imp of_decide_eq_true
  asks_ascending := (h.side false).sorted.imp of_decide_eq_true
  ne_nil := by
    intro level hlevel
    rcases mem_append.mp hlevel with hlevel | hlevel
    · exact h.ne_nil true level hlevel
    · exact h.ne_nil false level hlevel
  resting := by
    have hone {b : Bool} {price : Int} {r : OrderRef} (hr : Resting orders pair b price r) : r <
        orders.size ∧ (orders.get r).price = price ∧ 0 ≤ (orders.get r).filled ∧
        (orders.get r).filled < (orders.get r).amount :=
      ⟨hr.placed, hr.price, hr.nonneg, sub_pos.mp hr.left⟩
    intro level hlevel r hr
    rcases mem_append.mp hlevel with hlevel | hlevel
    · exact hone ((h.side true).resting level hlevel r hr)
    · exact hone ((h.side false).resting level hlevel r hr)
  uncrossed := by
    intro bid ask hbid hask
    obtain ⟨x, hx, rfl⟩ := map_eq_some_iff.mp hbid
    obtain ⟨y, hy, rfl⟩ := map_eq_some_iff.mp hask
    exact of_decide_eq_true (h.apart true x (mem_of_head? hx) y (mem_of_head? hy))

/-- **Every book is well formed after any calls**, of any side and with any IDs. -/
theorem books_wellFormed (P : Platform) (calls : List Call) (pair : TradingPair) (book : OrderBook)
    (hbook : (afterCalls P calls).books pair = some book) :
    book.WellFormed (afterCalls P calls).orders := by
  have hinv : EngineInv (afterCalls P calls) := by
    refine afterCalls_inv (fun h hfresh _ => h.enterOrder hfresh) ?_ ?_ calls
    · exact fun h hbook _ _ => h.withdrawOrder hbook
    · exact fun _ _ hnone => absurd hnone (some_ne_none _).symm
  exact (hinv pair book hbook).wellFormed

/-- Two bids of one owner whose IDs are the same (`0x102` for `3` and `1` for `0x203`), a sale of a
third side, and the cancellation of whichever of the bids the index has. -/
def collidingOrders : List Call :=
  let id := generateOrderID plainPlatform 7 ⟨1, 2⟩ orderSideBuy 0x102 3 0
  [.placeOrder 7 ⟨1, 2⟩ orderSideBuy (some 0x102) (some 3) 0 0,
    .placeOrder 7 ⟨1, 2⟩ orderSideBuy (some 1) (some 0x203) 0 0,
    .placeOrder 8 ⟨1, 2⟩ 2 (some 0x500) (some 1) 0 0, .cancelOrder id 7 [⟨1, 2⟩]]

theorem books_wellFormed_collidingOrders : ∃ book,
    (afterCalls plainPlatform collidingOrders).books ⟨1, 2⟩ = some book ∧
    book.bids = [⟨0x102, [0]⟩] ∧
    book.WellFormed (afterCalls plainPlatform collidingOrders).orders := by
  have hbids : ((afterCalls plainPlatform collidingOrders).books ⟨1, 2⟩).map OrderBook.bids =
      some [⟨0x102, [0]⟩] := by decide +kernel
  obtain ⟨book, hbook, hbids⟩ := map_eq_some_iff.mp hbids
  exact ⟨book, hbook, hbids, books_wellFormed plainPlatform collidingOrders ⟨1, 2⟩ book hbook⟩

end ProbeChain.Superlight
