/-
The read views of a book agree.

A side is read in seven ways: the full list of its levels, the list cut
at a depth, the same without the platforms, the best price, one level by
its price, the total depth and the number of levels. Each walks the map
for itself. `SideView.Agrees` says what the first has to do with the
others, over any seven readers, and of the readers nothing but their
values.

Of a side only two things count: its entries are sorted by the value of
the price, and none of them is empty (`Live`). With no empty level the
filters of the walks do nothing, and every reader is a function of one
list of entries (`agrees_of_walk`); bids take it backwards. The best
price is recomputed before the empty levels are pruned, so that it is the
end of the pruned list is a fact about runs (`systemBest_foldl_apply`).
-/
import Wup.Orderbook.Proofs.Invariant

namespace Wup

open Orderbook

variable (D : RustDecimal)

-- ============================================================= what agrees

/-- The readers of one side. -/
structure SideView where
  /-- All levels. -/
  full : List AggregatedPriceLevel
  /-- The first levels. -/
  top : Nat → List AggregatedPriceLevel
  /-- The first levels as prices and totals. -/
  totals : Nat → List (Decimal × Decimal)
  best : Option Decimal
  /-- The level at a price. -/
  level : String → Option AggregatedPriceLevel
  depth : Decimal
  levels : Nat

/-- The readers of the bids. -/
def Orderbook.bidView (ob : Orderbook) : SideView where
  full := ob.topBidsWithPlatforms D none
  top n := ob.topBidsWithPlatforms D (some n)
  totals n := ob.topBids D n
  best := ob.systemBestBid
  level := ob.getAggregatedBidLevel D
  depth := ob.bidDepth D
  levels := ob.bidLevels

/-- The readers of the asks. -/
def Orderbook.askView (ob : Orderbook) : SideView where
  full := ob.topAsksWithPlatforms D none
  top n := ob.topAsksWithPlatforms D (some n)
  totals n := ob.topAsks D n
  best := ob.systemBestAsk
  level := ob.getAggregatedAskLevel D
  depth := ob.askDepth D
  levels := ob.askLevels

/-- The texts are printed numbers, and these numbers. -/
def Read (texts : List String) (numbers : List ℚ) : Prop :=
  texts.map D.num = numbers.map some

/-- The readers of a side agree, its prices in the order `ahead`. -/
structure SideView.Agrees (ahead : ℚ → ℚ → Prop) (v : SideView) : Prop where
  /-- The prices are strictly in order. -/
  sorted : ∃ prices, Read D (v.full.map (·.price)) prices
    ∧ prices.Pairwise ahead
  /-- A list cut at a depth is the beginning of the full list. -/
  top : ∀ n, v.top n = v.full.take n
  top_all : ∀ n, v.levels ≤ n → v.top n = v.full
  /-- The lists without platforms have the same prices and totals. -/
  totals : ∀ n, (v.totals n).map (fun e => (D.toString e.1, D.toString e.2))
    = (v.top n).map fun l => (l.price, l.totalSize)
  /-- The first price is the best. -/
  best : v.full.head?.map (·.price) = v.best.map D.toString
  /-- A total is the sum of the sizes listed with it. -/
  total : ∀ l ∈ v.full, ∃ sizes, Read D (l.platforms.map (·.size)) sizes
    ∧ D.num l.totalSize = some sizes.sum
  /-- A level is found at the listed prices. -/
  level_isSome : ∀ price, (v.level price).isSome = true
    ↔ ∃ l ∈ v.full, D.num l.price = D.num price
  /-- And is the level listed there. -/
  level : ∀ price found, v.level price = some found →
    ∀ l ∈ v.full, D.num l.price = D.num price →
      found.totalSize = l.totalSize ∧ found.platforms = l.platforms
  /-- The depth is the sum of the totals. -/
  depth : ∃ totals, Read D (v.full.map (·.totalSize)) totals
    ∧ v.depth.val = totals.sum
  levels : v.levels = v.full.length

-- ================================================================ one walk

/-- No level is empty. -/
def Live (book : Levels) : Prop :=
  ∀ e ∈ book.entries, e.2.isEmpty = false

section Walk

variable {D} {book : Levels} {walk : List (Decimal × PlatformSizes)}

/-- Without empty levels a walk is only cut. -/
theorem topLevels_of_live (h : ∀ e ∈ walk, e.2.isEmpty = false) :
    topLevels walk none = walk
      ∧ ∀ n, topLevels walk (some n) = walk.take n := by
  have hfilter : walk.filter (fun e => !e.2.isEmpty) = walk :=
    List.filter_eq_self.2 fun e he => by rw [h e he]; rfl
  unfold topLevels
  rw [hfilter]
  exact ⟨rfl, fun n => rfl⟩

theorem levelCount_of_live (h : Live book) :
    levelCount book = book.entries.length := by
  unfold levelCount
  rw [List.filter_eq_self.2 fun e he => by rw [h e he]; rfl]

/-- Printed numbers read back. -/
theorem read_toString (hD : D.Lawful) (ds : List Decimal) :
    Read D (ds.map D.toString) (ds.map Decimal.val) := by
  unfold Read
  rw [List.map_map, List.map_map]
  exact List.map_congr_left fun d _ => hD.num_toString d

theorem num_price (hD : D.Lawful) (price : Decimal)
    (sizes : PlatformSizes) :
    D.num (aggregatedPriceLevel D price sizes).price = some price.val :=
  hD.num_toString price

/-- The total of a level is the sum of its listed sizes. -/
theorem total_of_level (hD : D.Exact) (price : Decimal)
    (sizes : PlatformSizes) :
    let l := aggregatedPriceLevel D price sizes
    Read D (l.platforms.map (·.size)) (sizes.sizes.values.map Decimal.val)
      ∧ D.num l.totalSize
        = some (sizes.sizes.values.map Decimal.val).sum := by
  intro l
  have htexts : l.platforms.map (·.size)
      = sizes.sizes.values.map D.toString := by
    show ((sizes.sizes.entries.map _).map _).map _
      = (sizes.sizes.entries.map _).map _
    rw [List.map_map, List.map_map, List.map_map]
    rfl
  refine ⟨htexts ▸ read_toString hD.toLawful _, ?_⟩
  show D.num (D.toString (sizes.totalSize D)) = _
  rw [hD.num_toString, PlatformSizes.totalSize, hD.val_sum]

/-- The level at a price, of a side without empty levels. -/
theorem getAggregatedLevel_of_live (h : Live book) (text : String) :
    getAggregatedLevel D book text
      = (D.fromStr text).bind fun price =>
          (book.get? price.val).map (aggregatedPriceLevel D price) := by
  unfold getAggregatedLevel
  congr 1
  funext price
  cases hget : book.get? price.val with
  | none => rfl
  | some sizes =>
      obtain ⟨k, hk, -⟩ := BTreeMap.get?_eq_some_iff.1 hget
      rw [Option.bind_some, h (k, sizes) hk]
      rfl

/-- The level found at a text is the stored one of its value. -/
theorem getAggregatedLevel_eq_some_iff (h : Live book) {text : String}
    {l : AggregatedPriceLevel} :
    getAggregatedLevel D book text = some l
      ↔ ∃ price, D.fromStr text = some price
        ∧ ∃ e ∈ book.entries, e.1.val = price.val
          ∧ aggregatedPriceLevel D price e.2 = l := by
  rw [getAggregatedLevel_of_live h, Option.bind_eq_some_iff]
  refine exists_congr fun price => and_congr_right fun _ => ?_
  rw [Option.map_eq_some_iff]
  refine ⟨fun hl => ?_, fun hl => ?_⟩
  · obtain ⟨sizes, hsizes, rfl⟩ := hl
    obtain ⟨k, hk, hval⟩ := BTreeMap.get?_eq_some_iff.1 hsizes
    exact ⟨(k, sizes), hk, hval, rfl⟩
  · obtain ⟨e, he, hval, rfl⟩ := hl
    exact ⟨e.2, BTreeMap.get?_eq_some_iff.2 ⟨e.1, he, hval⟩, rfl⟩

/-- The readers of a side without empty levels: they walk its entries as
they stand. -/
def walkView (D : RustDecimal) (book : Levels)
    (walk : List (Decimal × PlatformSizes)) (best : Option Decimal) :
    SideView where
  full := walk.map fun e => aggregatedPriceLevel D e.1 e.2
  top n := (walk.take n).map fun e => aggregatedPriceLevel D e.1 e.2
  totals n := (walk.take n).map fun e => (e.1, e.2.totalSize D)
  best := best
  level := getAggregatedLevel D book
  depth := Wup.depth D book
  levels := walk.length

theorem bidView_of_live {ob : Orderbook} (h : Live ob.bids) :
    ob.bidView D
      = walkView D ob.bids ob.bids.entries.reverse ob.systemBestBid := by
  obtain ⟨hnone, hsome⟩ := topLevels_of_live
    fun e he => h e (List.mem_reverse.1 he)
  simp only [Orderbook.bidView, walkView, topBidsWithPlatforms, topBids,
    hnone, hsome, bidLevels, levelCount_of_live h, List.length_reverse]
  rfl

theorem askView_of_live {ob : Orderbook} (h : Live ob.asks) :
    ob.askView D
      = walkView D ob.asks ob.asks.entries ob.systemBestAsk := by
  obtain ⟨hnone, hsome⟩ := topLevels_of_live h
  simp only [Orderbook.askView, walkView, topAsksWithPlatforms, topAsks,
    hnone, hsome, askLevels, levelCount_of_live h]
  rfl

variable {best : Option Decimal}

/-- The prices of the full list are the values of the entries. -/
theorem read_prices (hD : D.Lawful) :
    Read D ((walkView D book walk best).full.map (·.price))
      (walk.map fun e => e.1.val) := by
  have h := read_toString hD (walk.map (·.1))
  rw [List.map_map, List.map_map] at h
  rw [walkView, List.map_map]
  exact h

/-- A price is listed exactly where an entry stands. -/
theorem listed_iff (hD : D.Lawful) (hperm : walk.Perm book.entries)
    (price : Option ℚ) :
    (∃ l ∈ (walkView D book walk best).full, D.num l.price = price)
      ↔ ∃ e ∈ book.entries, some e.1.val = price := by
  refine ⟨fun h => ?_, fun h => ?_⟩
  · obtain ⟨l, hl, hprice⟩ := h
    obtain ⟨e, he, rfl⟩ := List.mem_map.1 hl
    rw [num_price hD] at hprice
    exact ⟨e, hperm.mem_iff.1 he, hprice⟩
  · obtain ⟨e, he, hprice⟩ := h
    refine ⟨_, List.mem_map_of_mem (hperm.mem_iff.2 he), ?_⟩
    rw [num_price hD, hprice]

theorem level_isSome_iff (hD : D.Lawful) (hlive : Live book)
    (hperm : walk.Perm book.entries) (text : String) :
    (getAggregatedLevel D book text).isSome = true
      ↔ ∃ l ∈ (walkView D book walk best).full,
        D.num l.price = D.num text := by
  rw [listed_iff hD hperm, Option.isSome_iff_exists, RustDecimal.num]
  simp only [getAggregatedLevel_eq_some_iff hlive]
  refine ⟨fun h => ?_, fun h => ?_⟩
  · obtain ⟨l, price, hprice, e, he, hval, -⟩ := h
    exact ⟨e, he, by rw [hprice, Option.map_some, hval]⟩
  · obtain ⟨e, he, hsame⟩ := h
    obtain ⟨price, hprice, hval⟩ := Option.map_eq_some_iff.1 hsame.symm
    exact ⟨_, price, hprice, e, he, hval.symm, rfl⟩

/-- Two entries of one price are one, so the level found is the one
listed. -/
theorem level_eq_listed (hD : D.Lawful) (hlive : Live book)
    (hperm : walk.Perm book.entries) {text : String}
    {found l : AggregatedPriceLevel}
    (hfound : getAggregatedLevel D book text = some found)
    (hl : l ∈ (walkView D book walk best).full)
    (hsame : D.num l.price = D.num text) :
    found.totalSize = l.totalSize ∧ found.platforms = l.platforms := by
  obtain ⟨price, hprice, e, he, hval, rfl⟩ :=
    (getAggregatedLevel_eq_some_iff hlive).1 hfound
  obtain ⟨e', he', rfl⟩ := List.mem_map.1 hl
  rw [num_price hD, RustDecimal.num, hprice, Option.map_some,
    Option.some.injEq, ← hval] at hsame
  have hone : some e' = some e := by
    rw [← BTreeMap.mem_entries_iff.1 (hperm.mem_iff.1 he'), hsame,
      BTreeMap.mem_entries_iff.1 he]
  rw [Option.some.inj hone]
  exact ⟨rfl, rfl⟩

/-- The depth adds the totals up in another order. -/
theorem read_totals (hD : D.Exact) (hperm : walk.Perm book.entries) :
    ∃ totals, Read D
        ((walkView D book walk best).full.map (·.totalSize)) totals
      ∧ (Wup.depth D book).val = totals.sum := by
  have hread := read_toString hD.toLawful
    (walk.map fun e => e.2.totalSize D)
  refine ⟨(walk.map fun e => e.2.totalSize D).map Decimal.val, ?_, ?_⟩
  · rw [walkView, List.map_map]
    rw [List.map_map] at hread
    exact hread
  · rw [Wup.depth, hD.val_sum]
    exact ((hperm.map _).map _).symm.sum_eq

/-- Readers that walk a sorted side agree. -/
theorem walkView_agrees (hD : D.Exact) (hlive : Live book)
    (hperm : walk.Perm book.entries) {ahead : ℚ → ℚ → Prop}
    (hsorted : walk.Pairwise fun a b => ahead a.1.val b.1.val)
    (hbest : best = walk.head?.map (·.1)) :
    (walkView D book walk best).Agrees D ahead where
  sorted := ⟨_, read_prices hD.toLawful, List.pairwise_map.2 hsorted⟩
  top n := List.map_take
  top_all n hn := by
    have hlength : walk.length ≤ n := hn
    simp only [walkView]
    rw [List.take_of_length_le hlength]
  totals n := by
    simp only [walkView, List.map_map]
    rfl
  best := by
    rw [walkView, hbest, List.head?_map, Option.map_map, Option.map_map]
    rfl
  total l hl := by
    obtain ⟨e, he, rfl⟩ := List.mem_map.1 hl
    exact ⟨_, total_of_level hD e.1 e.2⟩
  level_isSome := level_isSome_iff hD.toLawful hlive hperm
  level _ _ hfound _ hl := level_eq_listed hD.toLawful hlive
    hperm hfound hl
  depth := read_totals hD hperm
  levels := (List.length_map _).symm

end Walk

-- ================================================================ the book

/-- All read views of a book agree. -/
structure Orderbook.ViewsAgree (ob : Orderbook) : Prop where
  bids : (ob.bidView D).Agrees D fun price next => next < price
  asks : (ob.askView D).Agrees D fun price next => price < next
  isEmpty : ob.isEmpty = true ↔ ob.bidLevels = 0 ∧ ob.askLevels = 0

theorem Orderbook.Valid.live_bids {ob : Orderbook} (h : ob.Valid) :
    Live ob.bids :=
  fun e he => h.live .buy e.1.val e.2
    (BTreeMap.get?_eq_some_iff.2 ⟨e.1, he, rfl⟩)

theorem Orderbook.Valid.live_asks {ob : Orderbook} (h : ob.Valid) :
    Live ob.asks :=
  fun e he => h.live .sell e.1.val e.2
    (BTreeMap.get?_eq_some_iff.2 ⟨e.1, he, rfl⟩)

/-- No level with orders is no level to count. -/
theorem isEmpty_iff_levels (ob : Orderbook) :
    ob.isEmpty = true ↔ ob.bidLevels = 0 ∧ ob.askLevels = 0 := by
  have hside : ∀ book : Levels,
      (book.entries.all fun e => e.2.isEmpty) = true
        ↔ levelCount book = 0 := by
    intro book
    rw [levelCount, List.length_eq_zero_iff, List.filter_eq_nil_iff,
      List.all_eq_true]
    simp
  rw [Orderbook.isEmpty, Bool.and_eq_true, hside, hside]
  rfl

/-- All read views of a book agree, after any run of messages from the
empty one. -/
theorem views_agree (hD : D.Exact) (clobTokenId marketId : String)
    (msgs : List NormalizedOrderbook) :
    (msgs.foldl (Orderbook.apply D) (.new clobTokenId marketId)).ViewsAgree
      D := by
  have hvalid := valid_foldl_apply D (valid_new clobTokenId marketId) msgs
  obtain ⟨hbid, hask⟩ := systemBest_foldl_apply D clobTokenId marketId msgs
  refine ⟨?_, ?_, isEmpty_iff_levels _⟩
  · rw [bidView_of_live hvalid.live_bids]
    refine walkView_agrees hD hvalid.live_bids (List.reverse_perm _)
      (List.pairwise_reverse.2 (BTreeMap.sorted _)) ?_
    rw [hbid, List.head?_reverse]
  · rw [askView_of_live hvalid.live_asks]
    exact walkView_agrees hD hvalid.live_asks (.refl _) (BTreeMap.sorted _)
      hask

/-- Two platforms at one price, written in two ways, and a level that is
taken away again. -/
theorem views_agree_two_platforms :
    let msgs : List NormalizedOrderbook :=
      [.deltaOf "polymarket" "m" "t"
        [⟨.buy, "0.5", "10"⟩, ⟨.buy, "0.4", "1"⟩],
       .deltaOf "kalshi" "m" "t" [⟨.buy, "0.50", "5"⟩],
       .deltaOf "polymarket" "m" "t" [⟨.buy, "0.4", "0"⟩]]
    (msgs.foldl (Orderbook.apply fixedPoint) (.new "t" "m")).ViewsAgree
      fixedPoint :=
  views_agree fixedPoint fixedPoint_exact "t" "m" _

end Wup
