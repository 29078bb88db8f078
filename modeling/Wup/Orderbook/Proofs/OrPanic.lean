/-
When reading a book panics.

A reader panics when a sum it forms on the way leaves the range of a
decimal. Over a level the sums are of the platforms' sizes, in an order
nobody fixes; over a side they are of the level totals, in price order;
and the two best prices are added and subtracted. Each sum is rounded
before the next addition, so what is in range depends on the order.
`ReadsFit` says that all of them are in range, of the numbers the book
stores, and this is exactly when nothing panics (`readsSafely_iff`). A
reader that does not panic gives what the plain reader gives
(`toResponse_agrees`).

# The argument

`isOk_foldlM_add` is the whole of the arithmetic: an accumulation returns
when every item has a value and every sum on the way is in range. The sum
over a level is the case of items that are numbers, the depth of a side
the case of items that are levels. Each level has its own order, so any
choice of one arrangement per level is met by some run (`exists_orders`).
-/
import Wup.Orderbook.OrPanic

namespace Wup

variable {D : RustDecimal}

namespace OrPanic

-- ============================================= computations that may panic

variable {α β : Type}

theorem isOk_iff {x : OrPanic α} : x.isOk = true ↔ ∃ a, x = .ok a := by
  cases x with
  | error e => simp [Except.toBool]
  | ok a => simp [Except.toBool]

@[simp] theorem isOk_pure (a : α) : (pure a : OrPanic α).isOk = true := rfl

@[simp] theorem isOk_map {f : α → β} {x : OrPanic α} :
    (f <$> x).isOk = x.isOk := by
  cases x with
  | error e => rfl
  | ok a => rfl

theorem bind_eq_ok {x : OrPanic α} {f : α → OrPanic β} {b : β} :
    (x >>= f) = .ok b ↔ ∃ a, x = .ok a ∧ f a = .ok b := by
  cases x with
  | error e => simp [bind, Except.bind]
  | ok a => simp [bind, Except.bind]

theorem isOk_bind {x : OrPanic α} {f : α → OrPanic β} :
    (x >>= f).isOk = true ↔ ∃ a, x = .ok a ∧ (f a).isOk = true := by
  simp only [isOk_iff, bind_eq_ok]
  rw [exists_comm]
  exact exists_congr fun a => exists_and_left

/-- A computation followed by one whose return does not depend on it. -/
theorem isOk_bind_iff {x : OrPanic α} {f : α → OrPanic β} {P : Prop}
    (h : ∀ a, (f a).isOk = true ↔ P) :
    (x >>= f).isOk = true ↔ x.isOk = true ∧ P := by
  rw [isOk_bind, isOk_iff, ← exists_and_right]
  exact exists_congr fun a => and_congr_right fun _ => h a

theorem isOk_bind_of_forall {x : OrPanic α} {f : α → OrPanic β}
    (h : ∀ a, (f a).isOk = true) :
    (x >>= f).isOk = true ↔ x.isOk = true := by
  rw [isOk_bind_iff fun a => iff_true_intro (h a), and_true]

theorem isOk_mapM {f : α → OrPanic β} {as : List α} :
    (as.mapM f).isOk = true ↔ ∀ a ∈ as, (f a).isOk = true := by
  induction as with
  | nil => simp
  | cons a as ih =>
      rw [List.mapM_cons, List.forall_mem_cons, ← ih, isOk_bind, isOk_iff,
        ← exists_and_right]
      refine exists_congr fun b => and_congr_right fun _ => ?_
      exact isOk_bind_of_forall fun bs => rfl

-- ========================================================== the arithmetic

theorem add_eq_ok {a b c : Decimal} :
    add D a b = .ok c ↔ D.checkedAdd a b = some c := by
  unfold add
  split
  next h => simp [h]
  next h => simp [h]

theorem sub_eq_ok {a b c : Decimal} :
    sub D a b = .ok c ↔ D.checkedSub a b = some c := by
  unfold sub
  split
  next h => simp [h]
  next h => simp [h]

theorem isOk_add (hD : D.Rounds) {a b : Decimal} :
    (add D a b).isOk = true ↔ Decimal.format.InRange (a.val + b.val) := by
  rw [← Rounding.Format.isSome_nearest, ← hD.checkedAdd,
    Option.isSome_map, isOk_iff, Option.isSome_iff_exists]
  exact exists_congr fun c => add_eq_ok

theorem isOk_sub (hD : D.Rounds) {a b : Decimal} :
    (sub D a b).isOk = true ↔ Decimal.format.InRange (a.val - b.val) := by
  rw [← Rounding.Format.isSome_nearest, ← hD.checkedSub,
    Option.isSome_map, isOk_iff, Option.isSome_iff_exists]
  exact exists_congr fun c => sub_eq_ok

theorem val_of_add_eq_ok (hD : D.Rounds) {a b c : Decimal}
    (h : add D a b = .ok c) :
    c.val = Decimal.format.rounded (a.val + b.val) := by
  rw [Rounding.Format.rounded, ← hD.checkedAdd, add_eq_ok.1 h,
    Option.map_some, Option.getD_some]

variable {f : α → OrPanic Decimal} {value : α → ℚ}

/-- Values added to an accumulator come to their running sum. -/
theorem val_foldlM_add (hD : D.Rounds)
    (hf : ∀ a d, f a = .ok d → d.val = value a) {as : List α}
    {acc r : Decimal}
    (h : (as.foldlM (fun acc a => do add D acc (← f a)) acc) = .ok r) :
    r.val = Decimal.format.sumFrom acc.val (as.map value) := by
  induction as generalizing acc with
  | nil =>
      obtain rfl : acc = r := Except.ok.inj h
      rfl
  | cons a as ih =>
      obtain ⟨c, hc, hrest⟩ := bind_eq_ok.1 (List.foldlM_cons.symm.trans h)
      obtain ⟨d, hd, hadd⟩ := bind_eq_ok.1 hc
      rw [ih hrest, val_of_add_eq_ok hD hadd, hf a d hd, List.map_cons,
        Rounding.Format.sumFrom, Rounding.Format.sumFrom, List.foldl_cons]

/-- An accumulation returns when every item has a value and every sum on
the way is in range. -/
theorem isOk_foldlM_add (hD : D.Rounds)
    (hf : ∀ a d, f a = .ok d → d.val = value a) {as : List α}
    {acc : Decimal} :
    (as.foldlM (fun acc a => do add D acc (← f a)) acc).isOk = true
      ↔ (∀ a ∈ as, (f a).isOk = true)
        ∧ Decimal.format.SumsInRangeFrom acc.val (as.map value) := by
  induction as generalizing acc with
  | nil => simp [Rounding.Format.sumsInRangeFrom_nil]
  | cons a as ih =>
      rw [List.foldlM_cons, List.forall_mem_cons, List.map_cons,
        Rounding.Format.sumsInRangeFrom_cons, isOk_bind]
      constructor
      · rintro ⟨c, hc, hrest⟩
        obtain ⟨d, hd, hadd⟩ := bind_eq_ok.1 hc
        have hrange := (isOk_add hD).1 (isOk_iff.2 ⟨c, hadd⟩)
        obtain ⟨has, hsums⟩ := ih.1 hrest
        rw [val_of_add_eq_ok hD hadd] at hsums
        rw [hf a d hd] at hrange hsums
        exact ⟨⟨isOk_iff.2 ⟨d, hd⟩, has⟩, hrange, hsums⟩
      · rintro ⟨⟨ha, has⟩, hrange, hsums⟩
        obtain ⟨d, hd⟩ := isOk_iff.1 ha
        rw [← hf a d hd] at hrange hsums
        obtain ⟨c, hadd⟩ := isOk_iff.1 ((isOk_add hD).2 hrange)
        rw [← val_of_add_eq_ok hD hadd] at hsums
        exact ⟨c, bind_eq_ok.2 ⟨d, hd, hadd⟩, ih.2 ⟨has, hsums⟩⟩

/-- From zero the sums are those of the list itself. -/
theorem isOk_foldlM_add_zero (hD : D.Rounds)
    (hf : ∀ a d, f a = .ok d → d.val = value a) {as : List α} :
    (as.foldlM (fun acc a => do add D acc (← f a)) .zero).isOk = true
      ↔ (∀ a ∈ as, (f a).isOk = true)
        ∧ Decimal.format.SumsInRange (as.map value) := by
  rw [isOk_foldlM_add hD hf, Decimal.val_zero]
  rfl

-- ======================================================= the plain readers

/-- Whatever the computation returns is the value. -/
def Agrees (x : OrPanic α) (a : α) : Prop := ∀ b, x = .ok b → b = a

theorem agrees_pure (a : α) : Agrees (pure a) a := by
  intro b h
  exact (Except.ok.inj h).symm

theorem agrees_bind {x : OrPanic α} {f : α → OrPanic β} {a : α} {b : β}
    (hx : Agrees x a) (hf : Agrees (f a) b) : Agrees (x >>= f) b := by
  intro b' h
  obtain ⟨a', ha', hb'⟩ := bind_eq_ok.1 h
  obtain rfl := hx a' ha'
  exact hf b' hb'

theorem agrees_mapM {f : α → OrPanic β} {g : α → β}
    (h : ∀ a, Agrees (f a) (g a)) (as : List α) :
    Agrees (as.mapM f) (as.map g) := by
  induction as with
  | nil => exact agrees_pure []
  | cons a as ih =>
      rw [List.mapM_cons]
      exact agrees_bind (h a) (agrees_bind ih (agrees_pure _))

theorem agrees_foldlM {f : β → α → OrPanic β} {g : β → α → β}
    (h : ∀ acc a, Agrees (f acc a) (g acc a)) (as : List α) (acc : β) :
    Agrees (as.foldlM f acc) (as.foldl g acc) := by
  induction as generalizing acc with
  | nil => exact agrees_pure acc
  | cons a as ih =>
      rw [List.foldlM_cons, List.foldl_cons]
      exact agrees_bind (h acc a) (ih _)

theorem agrees_optionMapM {f : α → OrPanic β} {g : α → β}
    (h : ∀ a, Agrees (f a) (g a)) (o : Option α) :
    Agrees (o.mapM f) (o.map g) := by
  cases o with
  | none => exact agrees_pure none
  | some a => exact agrees_bind (h a) (agrees_pure _)

theorem agrees_add (a b : Decimal) : Agrees (add D a b) (D.add a b) := by
  intro c h
  rw [RustDecimal.add, add_eq_ok.1 h, Option.getD_some]

theorem agrees_sub (a b : Decimal) : Agrees (sub D a b) (D.sub a b) := by
  intro c h
  rw [RustDecimal.sub, sub_eq_ok.1 h, Option.getD_some]

theorem agrees_totalSize (ps : PlatformSizes) :
    Agrees (totalSize D .stored ps) (ps.totalSize D) := by
  have hvalues : (HashMap.IterOrder.stored.entries ps.sizes).map (·.2)
      = ps.sizes.values := by
    show (ps.sizes.entries.map fun e => (e.1, e.2)).map (·.2) = _
    rw [List.map_map]
    rfl
  unfold totalSize sum
  rw [hvalues]
  exact agrees_foldlM agrees_add _ _

theorem agrees_aggregatedPriceLevel (price : Decimal)
    (sizes : PlatformSizes) :
    Agrees (aggregatedPriceLevel D .stored price sizes)
      (Wup.aggregatedPriceLevel D price sizes) :=
  agrees_bind (agrees_totalSize sizes) (agrees_pure _)

theorem agrees_depth (book : Levels) :
    Agrees (depth D (fun _ => .stored) book) (Wup.depth D book) := by
  unfold Wup.depth RustDecimal.sum
  rw [List.foldl_map]
  exact agrees_foldlM (fun acc (e : Decimal × PlatformSizes) =>
    agrees_bind (agrees_totalSize e.2) (agrees_add acc _)) _ _

theorem agrees_midPrice (ob : Orderbook) :
    Agrees (midPrice D ob) (ob.midPrice D) := by
  unfold midPrice Orderbook.midPrice
  cases ob.systemBestBid with
  | none => exact agrees_pure none
  | some bid =>
      cases ob.systemBestAsk with
      | none => exact agrees_pure none
      | some ask => exact agrees_bind (agrees_add bid ask) (agrees_pure _)

theorem agrees_spread (ob : Orderbook) :
    Agrees (spread D ob) (ob.spread D) := by
  unfold spread Orderbook.spread
  cases ob.systemBestBid with
  | none => exact agrees_pure none
  | some bid =>
      cases ob.systemBestAsk with
      | none => exact agrees_pure none
      | some ask => exact agrees_bind (agrees_sub ask bid) (agrees_pure _)

theorem agrees_topWithPlatforms (walk : List (Decimal × PlatformSizes))
    (n : Option Nat) :
    Agrees (topWithPlatforms D (fun _ => .stored) walk n)
      ((topLevels walk n).map fun e =>
        Wup.aggregatedPriceLevel D e.1 e.2) :=
  agrees_mapM (fun e : Decimal × PlatformSizes =>
    agrees_aggregatedPriceLevel e.1 e.2) _

/-- The response, if the reader returns one, is the plain reader's. -/
theorem toResponse_agrees (ob : Orderbook) (n : Option Nat)
    (metadata : ResponseMetadata) :
    Agrees (toResponse D (fun _ _ => .stored) ob n metadata)
      (ob.toResponse D n metadata) :=
  agrees_bind (agrees_topWithPlatforms _ n) <|
    agrees_bind (agrees_topWithPlatforms _ n) <|
    agrees_bind (agrees_midPrice ob) <|
    agrees_bind (agrees_spread ob) <|
    agrees_bind (agrees_depth ob.bids) <|
    agrees_bind (agrees_depth ob.asks) (agrees_pure _)

theorem toBboResponse_agrees (ob : Orderbook)
    (metadata : ResponseMetadata) :
    Agrees (toBboResponse D ob metadata) (ob.toBboResponse D metadata) :=
  agrees_bind (agrees_midPrice ob) <|
    agrees_bind (agrees_spread ob) (agrees_pure _)

theorem getAggregatedLevel_agrees (book : Levels) (price : String) :
    Agrees (getAggregatedLevel D (fun _ => .stored) book price)
      (Wup.getAggregatedLevel D book price) := by
  unfold getAggregatedLevel Wup.getAggregatedLevel
  cases D.fromStr price with
  | none => exact agrees_pure none
  | some price =>
      cases hget : book.get? price.val with
      | none =>
          simp only [hget, Option.bind_some, Option.bind_none]
          exact agrees_pure none
      | some sizes =>
          simp only [hget, Option.bind_some]
          split
          · exact agrees_pure none
          · exact agrees_bind (agrees_aggregatedPriceLevel price sizes)
              (agrees_pure _)

section Store

variable (store : OrderbookStore) (m a : String)

theorem get_agrees (n : Option Nat) :
    Agrees (get D store m a n) (store.get D m a n) :=
  agrees_optionMapM (fun ob => toResponse_agrees ob n _) _

theorem getBbo_agrees : Agrees (getBbo D store m a) (store.getBbo D m a) :=
  agrees_optionMapM (fun ob => toBboResponse_agrees ob _) _

theorem getMarket_agrees (n : Option Nat) :
    Agrees (getMarket D store m n) (store.getMarket D m n) := by
  refine agrees_optionMapM (fun books => ?_) _
  exact agrees_bind (agrees_mapM (fun ob => toResponse_agrees ob n _) _)
    (agrees_pure _)

theorem getMarketBbos_agrees :
    Agrees (getMarketBbos D store m) (store.getMarketBbos D m) := by
  refine agrees_optionMapM (fun books => ?_) _
  exact agrees_bind (agrees_mapM (fun ob => toBboResponse_agrees ob _) _)
    (agrees_pure _)

/-- What is published, if the levels can be read, is what the service
publishes. -/
theorem processMessage_agrees (service : OrderbookService)
    (msg : NormalizedOrderbook) (now : Int) :
    Agrees (processMessage D service store msg now).2
      (service.processMessage D store msg now).2 := by
  unfold processMessage
  simp only
  cases hpublish : service.publishChanges with
  | true =>
      intro r h
      obtain ⟨levels, -, hr⟩ := bind_eq_ok.1 h
      exact (Except.ok.inj hr).symm
  | false =>
      unfold OrderbookService.processMessage
      simp only [hpublish]
      exact agrees_pure none

end Store

end OrPanic

-- ======================================================= the sums in range

/-- The sizes of a level, as numbers. -/
def PlatformSizes.amounts (ps : PlatformSizes) : List ℚ :=
  ps.sizes.values.map Decimal.val

/-- Whatever order the sizes of each level are added in, the levels can be
totalled, and so can their totals in price order. -/
structure Levels.Fits (book : Levels) : Prop where
  level : ∀ e ∈ book.entries, ∀ sizes, sizes.Perm e.2.amounts →
    Decimal.format.SumsInRange sizes
  depth : ∀ sizes : ℚ → List ℚ,
    (∀ e ∈ book.entries, (sizes e.1.val).Perm e.2.amounts) →
      Decimal.format.SumsInRange
        (book.entries.map fun e => Decimal.format.runningSum (sizes e.1.val))

/-- Whatever a reader of the book adds up or subtracts is in range. -/
structure Orderbook.ReadsFit (ob : Orderbook) : Prop where
  bids : ob.bids.Fits
  asks : ob.asks.Fits
  mid : ∀ bid ∈ ob.systemBestBid, ∀ ask ∈ ob.systemBestAsk,
    Decimal.format.InRange (bid.val + ask.val)
  spread : ∀ bid ∈ ob.systemBestBid, ∀ ask ∈ ob.systemBestAsk,
    Decimal.format.InRange (ask.val - bid.val)

/-- No reader of the book panics, whatever it is asked for and in
whichever orders the hash maps yield the sizes. -/
structure Orderbook.ReadsSafely (D : RustDecimal) (ob : Orderbook) :
    Prop where
  toResponse : ∀ orders depth metadata,
    (OrPanic.toResponse D orders ob depth metadata).isOk = true
  toBboResponse : ∀ metadata,
    (OrPanic.toBboResponse D ob metadata).isOk = true
  getAggregatedBidLevel : ∀ orders price,
    (OrPanic.getAggregatedBidLevel D orders ob price).isOk = true
  getAggregatedAskLevel : ∀ orders price,
    (OrPanic.getAggregatedAskLevel D orders ob price).isOk = true

namespace OrPanic

-- ============================================================ over a level

/-- The sizes of a level, as numbers in the order it yields them. -/
def sizesIn (order : LevelOrder) (ps : PlatformSizes) : List ℚ :=
  ((order.entries ps.sizes).map (·.2)).map Decimal.val

theorem stored_sizes (ps : PlatformSizes) :
    ((ps.sizes.entries.map fun e => (e.1, e.2)).map (·.2)).map Decimal.val
      = ps.amounts := by
  rw [PlatformSizes.amounts, HashMap.values, List.map_map, List.map_map,
    List.map_map]
  rfl

theorem sizesIn_perm (order : LevelOrder) (ps : PlatformSizes) :
    (sizesIn order ps).Perm ps.amounts := by
  rw [← stored_sizes]
  exact ((order.perm ps.sizes).map (·.2)).map Decimal.val

/-- Every arrangement of the sizes is the order of some iteration. -/
theorem exists_order {ps : PlatformSizes} {sizes : List ℚ}
    (h : sizes.Perm ps.amounts) : ∃ order, sizesIn order ps = sizes := by
  rw [← stored_sizes, List.map_map] at h
  obtain ⟨es, rfl, hperm⟩ := (congrFun (congrFun
    (List.eq_map_comp_perm _) sizes) _).mpr h
  obtain ⟨order, horder⟩ := HashMap.IterOrder.exists_entries hperm
  refine ⟨order, ?_⟩
  rw [sizesIn, horder, List.map_map]

/-- A number is an item that has its own value. -/
theorem val_of_pure (a d : Decimal)
    (h : (pure a : OrPanic Decimal) = .ok d) : d.val = a.val := by
  rw [Except.ok.inj h]

variable {order : LevelOrder} {orders : LevelOrders}

theorem val_totalSize (hD : D.Rounds) {ps : PlatformSizes} {d : Decimal}
    (h : totalSize D order ps = .ok d) :
    d.val = Decimal.format.runningSum (sizesIn order ps) := by
  rw [val_foldlM_add hD val_of_pure h, Decimal.val_zero]
  rfl

theorem isOk_totalSize (hD : D.Rounds) {ps : PlatformSizes} :
    (totalSize D order ps).isOk = true
      ↔ Decimal.format.SumsInRange (sizesIn order ps) :=
  (isOk_foldlM_add_zero hD val_of_pure).trans
    (and_iff_right fun a _ => isOk_pure a)

/-- The levels of a side that fits can be totalled. -/
theorem isOk_totalSize_of_fits (hD : D.Rounds) {book : Levels}
    (h : book.Fits) {e : Decimal × PlatformSizes} (he : e ∈ book.entries)
    (order : LevelOrder) : (totalSize D order e.2).isOk = true :=
  (isOk_totalSize hD).2 (h.level e he _ (sizesIn_perm order _))

-- ============================================================= over a side

theorem isOk_depth (hD : D.Rounds) {book : Levels} :
    (depth D orders book).isOk = true
      ↔ (∀ e ∈ book.entries,
          (totalSize D (orders e.1.val) e.2).isOk = true)
        ∧ Decimal.format.SumsInRange (book.entries.map fun e =>
            Decimal.format.runningSum (sizesIn (orders e.1.val) e.2)) :=
  isOk_foldlM_add_zero hD fun _ _ h => val_totalSize hD h

theorem isOk_aggregatedPriceLevel {price : Decimal}
    {sizes : PlatformSizes} :
    (aggregatedPriceLevel D order price sizes).isOk = true
      ↔ (totalSize D order sizes).isOk = true :=
  isOk_bind_of_forall fun _ => rfl

/-- Levels are stored one at a price, so one arrangement for each of them
is met by some orders. -/
theorem exists_orders {book : Levels} {sizes : ℚ → List ℚ}
    (h : ∀ e ∈ book.entries, (sizes e.1.val).Perm e.2.amounts) :
    ∃ orders : LevelOrders, ∀ e ∈ book.entries,
      sizesIn (orders e.1.val) e.2 = sizes e.1.val := by
  have hlevel : ∀ p, ∃ order : LevelOrder, ∀ ps,
      book.get? p = some ps → sizesIn order ps = sizes p := by
    intro p
    cases hget : book.get? p with
    | none => exact ⟨.stored, nofun⟩
    | some ps =>
        obtain ⟨price, he, rfl⟩ := BTreeMap.get?_eq_some_iff.1 hget
        obtain ⟨order, horder⟩ := exists_order (h _ he)
        refine ⟨order, fun ps' hps' => ?_⟩
        obtain rfl := Option.some.inj hps'
        exact horder
  choose orders horders using hlevel
  exact ⟨orders, fun e he => horders e.1.val e.2
    (BTreeMap.get?_eq_some_iff.2 ⟨e.1, he, rfl⟩)⟩

/-- A side fits exactly if its depth can be computed in every order. -/
theorem forall_isOk_depth (hD : D.Rounds) {book : Levels} :
    (∀ orders, (depth D orders book).isOk = true) ↔ book.Fits := by
  constructor
  · intro h
    refine ⟨fun e he sizes hsizes => ?_, fun sizes hsizes => ?_⟩
    · obtain ⟨order, rfl⟩ := exists_order hsizes
      exact (isOk_totalSize hD).1 (((isOk_depth hD).1
        (h fun _ => order)).1 e he)
    · obtain ⟨orders, horders⟩ := exists_orders hsizes
      have hdepth := ((isOk_depth hD).1 (h orders)).2
      rwa [List.map_congr_left fun e he => by rw [horders e he]] at hdepth
  · intro h orders
    refine (isOk_depth hD).2
      ⟨fun e he => isOk_totalSize_of_fits hD h he _, ?_⟩
    -- the arrangement of a level, by its price
    let sizes (p : ℚ) : List ℚ :=
      ((book.get? p).map (sizesIn (orders p))).getD []
    have hsizes : ∀ e ∈ book.entries,
        sizes e.1.val = sizesIn (orders e.1.val) e.2 := by
      intro e he
      show ((book.get? e.1.val).map _).getD [] = _
      rw [BTreeMap.get?_eq_some_iff.2 ⟨e.1, he, rfl⟩]
      rfl
    have hdepth := h.depth sizes fun e he =>
      hsizes e he ▸ sizesIn_perm _ _
    rwa [List.map_congr_left fun e he => by rw [hsizes e he]] at hdepth

/-- The listed levels are levels of the side. -/
theorem isOk_topWithPlatforms {walk : List (Decimal × PlatformSizes)}
    {n : Option Nat}
    (h : ∀ e ∈ walk, (totalSize D (orders e.1.val) e.2).isOk = true) :
    (topWithPlatforms D orders walk n).isOk = true := by
  refine isOk_mapM.2 fun e he => isOk_aggregatedPriceLevel.2 (h e ?_)
  have hlive : e ∈ walk.filter fun e => !e.2.isEmpty := by
    cases n with
    | none => exact he
    | some n => exact List.mem_of_mem_take he
  exact (List.mem_filter.1 hlive).1

theorem isOk_getAggregatedLevel {book : Levels} {price : String}
    (h : ∀ e ∈ book.entries, ∀ order,
      (totalSize D order e.2).isOk = true) :
    (getAggregatedLevel D orders book price).isOk = true := by
  unfold getAggregatedLevel
  cases D.fromStr price with
  | none => rfl
  | some price =>
      cases hget : book.get? price.val with
      | none =>
          simp only [hget]
          rfl
      | some sizes =>
          obtain ⟨key, hmem, -⟩ := BTreeMap.get?_eq_some_iff.1 hget
          have hlevel : (some <$> aggregatedPriceLevel D
              (orders price.val) price sizes).isOk = true := by
            rw [isOk_map]
            exact isOk_aggregatedPriceLevel.2 (h _ hmem _)
          simp only [hget]
          split
          · rfl
          · exact hlevel

-- ==================================================== over the best prices

theorem isOk_midPrice (hD : D.Rounds) {ob : Orderbook} :
    (midPrice D ob).isOk = true
      ↔ ∀ bid ∈ ob.systemBestBid, ∀ ask ∈ ob.systemBestAsk,
          Decimal.format.InRange (bid.val + ask.val) := by
  unfold midPrice
  cases ob.systemBestBid with
  | none => simp
  | some bid =>
      cases ob.systemBestAsk with
      | none => simp
      | some ask =>
          rw [isOk_bind_of_forall fun _ => rfl, isOk_add hD]
          simp

theorem isOk_spread (hD : D.Rounds) {ob : Orderbook} :
    (spread D ob).isOk = true
      ↔ ∀ bid ∈ ob.systemBestBid, ∀ ask ∈ ob.systemBestAsk,
          Decimal.format.InRange (ask.val - bid.val) := by
  unfold spread
  cases ob.systemBestBid with
  | none => simp
  | some bid =>
      cases ob.systemBestAsk with
      | none => simp
      | some ask =>
          rw [isOk_map, isOk_sub hD]
          simp

-- ===================================================== the whole responses

section Responses

variable {orders : OrderSide → LevelOrders}

theorem isOk_toResponse {ob : Orderbook} {n : Option Nat}
    {metadata : ResponseMetadata} :
    (toResponse D orders ob n metadata).isOk = true
      ↔ (topBidsWithPlatforms D orders ob n).isOk = true
        ∧ (topAsksWithPlatforms D orders ob n).isOk = true
        ∧ (midPrice D ob).isOk = true ∧ (spread D ob).isOk = true
        ∧ (bidDepth D orders ob).isOk = true
        ∧ (askDepth D orders ob).isOk = true :=
  isOk_bind_iff fun _ => isOk_bind_iff fun _ => isOk_bind_iff fun _ =>
    isOk_bind_iff fun _ => isOk_bind_iff fun _ =>
      isOk_bind_of_forall fun _ => rfl

theorem isOk_toBboResponse {ob : Orderbook}
    {metadata : ResponseMetadata} :
    (toBboResponse D ob metadata).isOk = true
      ↔ (midPrice D ob).isOk = true ∧ (spread D ob).isOk = true :=
  isOk_bind_iff fun _ => isOk_bind_of_forall fun _ => rfl

end Responses

end OrPanic

-- ========================================================== when it panics

open OrPanic

/-- A decimal in units of the last digit of a scale. -/
def Decimal.units (s : Nat) (d : Decimal) : Nat :=
  (d.mantissa * 10 ^ (s - d.scale)).toNat

theorem Decimal.val_eq_units {s : Nat} {d : Decimal}
    (hd : 0 ≤ d.mantissa) (hs : d.scale ≤ s) :
    d.val = d.units s / 10 ^ s := by
  have hpos : 0 ≤ d.mantissa * 10 ^ (s - d.scale) := by positivity
  have hunits : ((d.units s : Nat) : ℚ)
      = ((d.mantissa * 10 ^ (s - d.scale) : Int) : ℚ) := by
    exact_mod_cast Int.toNat_of_nonneg hpos
  rw [hunits, Decimal.val_rescale d.mantissa hs, Decimal.val]

/-- Without negative sizes, and with sizes of no more than `s` digits, a
side fits if its sizes together come to no more than the largest mantissa
at `s` digits. -/
theorem Levels.fits_of_nonneg {book : Levels} {s : Nat}
    (hs : s ≤ Decimal.format.digits)
    (hsizes : ∀ e ∈ book.entries, ∀ d ∈ e.2.sizes.values,
      0 ≤ d.mantissa ∧ d.scale ≤ s)
    (htotal : (book.entries.map fun e =>
        (e.2.sizes.values.map (·.units s)).sum).sum
      ≤ Decimal.format.max) : book.Fits := by
  -- however they are arranged, the sizes are whole units
  have hlevel : ∀ e ∈ book.entries, ∀ sizes, sizes.Perm e.2.amounts →
      Decimal.format.SumsInRange sizes
        ∧ Decimal.format.runningSum sizes
          = (e.2.sizes.values.map (·.units s)).sum / 10 ^ s := by
    intro e he sizes hperm
    have hamounts : e.2.amounts
        = (e.2.sizes.values.map (·.units s)).map
            fun n : Nat => (n : ℚ) / 10 ^ s := by
      rw [PlatformSizes.amounts, List.map_map]
      refine List.map_congr_left fun d hd => ?_
      obtain ⟨hpos, hscale⟩ := hsizes e he d hd
      exact Decimal.val_eq_units hpos hscale
    rw [hamounts] at hperm
    obtain ⟨ns, rfl, hns⟩ := (congrFun (congrFun
      (List.eq_map_comp_perm _) sizes) _).mpr hperm
    rw [← hns.sum_eq]
    refine Rounding.Format.sumsInRange_of_nonneg hs ?_
    rw [hns.sum_eq]
    exact (List.single_le_sum (fun _ _ => Nat.zero_le _) _
      (List.mem_map.2 ⟨e, he, rfl⟩)).trans htotal
  refine ⟨fun e he sizes hperm => (hlevel e he sizes hperm).1,
    fun sizes hperm => ?_⟩
  have htotals : (book.entries.map fun e =>
        Decimal.format.runningSum (sizes e.1.val))
      = (book.entries.map fun e =>
          (e.2.sizes.values.map (·.units s)).sum).map
            fun n : Nat => (n : ℚ) / 10 ^ s := by
    rw [List.map_map]
    exact List.map_congr_left fun e he =>
      (hlevel e he _ (hperm e he)).2
  rw [htotals]
  exact (Rounding.Format.sumsInRange_of_nonneg hs htotal).1

/-- A book whose readers never panic has all its sums in range. -/
theorem Orderbook.ReadsSafely.readsFit (hD : D.Rounds) {ob : Orderbook}
    (h : ob.ReadsSafely D) : ob.ReadsFit := by
  have hresponse orders := isOk_toResponse.1
    (h.toResponse orders none ⟨"", ∅, ∅⟩)
  obtain ⟨hmid, hspread⟩ := isOk_toBboResponse.1
    (h.toBboResponse ⟨"", ∅, ∅⟩)
  exact {
    bids := (forall_isOk_depth hD).1 fun orders =>
      (hresponse fun _ => orders).2.2.2.2.1
    asks := (forall_isOk_depth hD).1 fun orders =>
      (hresponse fun _ => orders).2.2.2.2.2
    mid := (isOk_midPrice hD).1 hmid
    spread := (isOk_spread hD).1 hspread }

/-- And where all sums are in range no reader panics. -/
theorem Orderbook.ReadsFit.readsSafely (hD : D.Rounds) {ob : Orderbook}
    (h : ob.ReadsFit) : ob.ReadsSafely D := by
  have hbid : ∀ e ∈ ob.bids.entries, ∀ order,
      (totalSize D order e.2).isOk = true :=
    fun _ he => isOk_totalSize_of_fits hD h.bids he
  have hask : ∀ e ∈ ob.asks.entries, ∀ order,
      (totalSize D order e.2).isOk = true :=
    fun _ he => isOk_totalSize_of_fits hD h.asks he
  have hmid := (isOk_midPrice hD).2 h.mid
  have hspread := (isOk_spread hD).2 h.spread
  exact {
    toResponse := fun orders depth metadata => isOk_toResponse.2
      ⟨isOk_topWithPlatforms fun e he =>
          hbid e (List.mem_reverse.1 he) _,
        isOk_topWithPlatforms fun e he => hask e he _, hmid, hspread,
        (forall_isOk_depth hD).2 h.bids (orders .buy),
        (forall_isOk_depth hD).2 h.asks (orders .sell)⟩
    toBboResponse := fun _ => isOk_toBboResponse.2 ⟨hmid, hspread⟩
    getAggregatedBidLevel := fun _ _ => isOk_getAggregatedLevel hbid
    getAggregatedAskLevel := fun _ _ => isOk_getAggregatedLevel hask }

/-- The store can read every book it has. -/
def OrderbookStore.ReadsSafely (D : RustDecimal) (store : OrderbookStore) :
    Prop :=
  ∀ m a ob, store.bookAt m a = some ob → ob.ReadsSafely D

namespace OrPanic

/-- A computation that returns and agrees is the value. -/
theorem eq_ok_of_agrees {α : Type} {x : OrPanic α} {a : α}
    (h : Agrees x a) (hx : x.isOk = true) : x = .ok a := by
  obtain ⟨b, hb⟩ := isOk_iff.1 hx
  rw [hb, h b hb]

theorem isOk_optionMapM {α β : Type} {f : α → OrPanic β} {o : Option α} :
    (o.mapM f).isOk = true ↔ ∀ a ∈ o, (f a).isOk = true := by
  cases o with
  | none => exact iff_of_true rfl nofun
  | some a =>
      have hmap : (Option.mapM f (some a)).isOk = (f a).isOk := isOk_map
      rw [hmap]
      simp

section Store

variable {store : OrderbookStore} {m a : String}

/-- The books of a market are those found under their ids. -/
theorem exists_bookAt {books : HashMap String Orderbook}
    (hbooks : store.books.lookup m = some books) {ob : Orderbook}
    (hob : ob ∈ books.values) : ∃ a, store.bookAt m a = some ob := by
  obtain ⟨a, ha⟩ := HashMap.mem_values.1 hob
  refine ⟨a, ?_⟩
  rw [OrderbookStore.bookAt, hbooks, Option.bind_some, ha]

theorem get_eq (h : ∀ ob ∈ store.bookAt m a, ob.ReadsSafely D)
    (n : Option Nat) : get D store m a n = .ok (store.get D m a n) :=
  eq_ok_of_agrees (get_agrees store m a n)
    (isOk_optionMapM.2 fun ob hob => (h ob hob).toResponse _ n _)

theorem getBbo_eq (h : ∀ ob ∈ store.bookAt m a, ob.ReadsSafely D) :
    getBbo D store m a = .ok (store.getBbo D m a) :=
  eq_ok_of_agrees (getBbo_agrees store m a)
    (isOk_optionMapM.2 fun ob hob => (h ob hob).toBboResponse _)

theorem getMarket_eq
    (h : ∀ a ob, store.bookAt m a = some ob → ob.ReadsSafely D)
    (n : Option Nat) :
    getMarket D store m n = .ok (store.getMarket D m n) := by
  refine eq_ok_of_agrees (getMarket_agrees store m n)
    (isOk_optionMapM.2 fun books hbooks => ?_)
  refine (isOk_bind_of_forall fun _ => rfl).2 (isOk_mapM.2 fun ob hob => ?_)
  obtain ⟨a, ha⟩ := exists_bookAt hbooks hob
  exact (h a ob ha).toResponse _ n _

theorem getMarketBbos_eq
    (h : ∀ a ob, store.bookAt m a = some ob → ob.ReadsSafely D) :
    getMarketBbos D store m = .ok (store.getMarketBbos D m) := by
  refine eq_ok_of_agrees (getMarketBbos_agrees store m)
    (isOk_optionMapM.2 fun books hbooks => ?_)
  refine (isOk_bind_of_forall fun _ => rfl).2 (isOk_mapM.2 fun ob hob => ?_)
  obtain ⟨a, ha⟩ := exists_bookAt hbooks hob
  exact (h a ob ha).toBboResponse _

end Store

end OrPanic

/-- In every run, the book reached can be read in every way exactly if
what the readers add up and subtract of it is in range. -/
theorem readsSafely_iff (hD : D.Rounds) (clobTokenId marketId : String)
    (msgs : List NormalizedOrderbook) :
    (msgs.foldl (Orderbook.apply D)
        (.new clobTokenId marketId)).ReadsSafely D
      ↔ (msgs.foldl (Orderbook.apply D)
          (.new clobTokenId marketId)).ReadsFit :=
  ⟨fun h => h.readsFit hD, fun h => h.readsSafely hD⟩

/-- A bid and an ask of ordinary sizes. -/
theorem readsSafely_two_levels :
    ([.deltaOf "polymarket" "m" "t"
        [⟨.buy, "0.5", "10.25"⟩, ⟨.sell, "0.6", "3"⟩]].foldl
      (Orderbook.apply rustDecimal) (.new "t" "m")).ReadsSafely
        rustDecimal := by
  refine (readsSafely_iff rustDecimal_rounds "t" "m" _).2 ?_
  exact {
    bids := Levels.fits_of_nonneg (s := 2) (by decide) (by decide +kernel)
      (by decide +kernel)
    asks := Levels.fits_of_nonneg (s := 2) (by decide) (by decide +kernel)
      (by decide +kernel)
    mid := by decide +kernel
    spread := by decide +kernel }

/-- Bids whose exact total is in range, and whose sums as they are rounded
are not. -/
example : (bidDepth rustDecimal (fun _ _ => .stored)
    ([.deltaOf "polymarket" "m" "t"
        [⟨.buy, "0.1", "79228162514264337593543950333"⟩,
          ⟨.buy, "0.2", "0.6"⟩, ⟨.buy, "0.3", "0.6"⟩,
          ⟨.buy, "0.4", "0.6"⟩]].foldl
      (Orderbook.apply rustDecimal) (.new "t" "m"))).isOk = false := by
  decide +kernel

/-- The price and size texts of a message. -/
def NormalizedOrderbook.numbers (msg : NormalizedOrderbook) :
    List String :=
  ((msg.bids.getD []) ++ (msg.asks.getD [])).flatMap
      (fun level => [level.price, level.size])
    ++ (msg.updates.getD []).flatMap
      (fun update => [update.price, update.size])

/-- Two bids, each of the largest size there is: the bid depth cannot be
computed. -/
theorem two_largest_bids :
    ¬ ∀ msgs : List NormalizedOrderbook,
        (∀ msg ∈ msgs, ∀ s ∈ msg.numbers, ∀ d ∈ rustDecimal.fromStr s,
          |d.val| ≤ Decimal.maxValue) →
        (msgs.foldl (Orderbook.apply rustDecimal)
          (.new "t" "m")).ReadsSafely rustDecimal := by
  intro h
  have hsafe := h [.deltaOf "polymarket" "m" "t"
    [⟨.buy, "0.5", "79228162514264337593543950335"⟩,
      ⟨.buy, "0.4", "79228162514264337593543950335"⟩]] (by decide +kernel)
  have hpanics : (OrPanic.toResponse rustDecimal (fun _ _ => .stored)
      ([.deltaOf "polymarket" "m" "t"
        [⟨.buy, "0.5", "79228162514264337593543950335"⟩,
          ⟨.buy, "0.4", "79228162514264337593543950335"⟩]].foldl
        (Orderbook.apply rustDecimal) (.new "t" "m")) none
      ⟨"", ∅, ∅⟩).isOk = false := by
    decide +kernel
  exact Bool.false_ne_true
    (hpanics.symm.trans (hsafe.toResponse _ none ⟨"", ∅, ∅⟩))

end Wup
