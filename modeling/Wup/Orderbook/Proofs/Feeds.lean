/-
Platforms do not interfere: any interleaving of the feeds gives the same
books.

A feed is what one platform sends about one asset of one market. Two
runs with the same feeds have, for every asset, own messages that are
permutations of each other and equal once restricted to a platform. The
quotes of a platform see its own messages only, so they agree
(`quotes_foldl_filter`); the levels, the best prices and the level counts
are functions of the quotes in a settled book, and the counters count
messages.

Prices are compared as the crate compares them, by value. The text a
level is printed under may depend on who created it first.
-/
import Wup.Orderbook.Proofs.Invariant

namespace Wup

open Orderbook

variable (D : RustDecimal)

-- =============================================================== the feeds

/-- Whose feed a message is part of: platform, market and asset. -/
def NormalizedOrderbook.feed (msg : NormalizedOrderbook) :
    String × String × String :=
  (msg.platform, msg.key)

/-- Two runs that merge the same feeds. -/
def SameFeeds (xs ys : List NormalizedOrderbook) : Prop :=
  ∀ c, xs.filter (fun msg => msg.feed = c)
    = ys.filter (fun msg => msg.feed = c)

/-- Two books that agree on everything but the order of the platforms
and the time of the last message. -/
structure SameBook (ob ob' : Orderbook) : Prop where
  levels : ∀ (side : Side) p,
    ((ob.book side.isBid).get? p).map PlatformSizes.get
      = ((ob'.book side.isBid).get? p).map PlatformSizes.get
  systemBestBid :
    ob.systemBestBid.map Decimal.val = ob'.systemBestBid.map Decimal.val
  systemBestAsk :
    ob.systemBestAsk.map Decimal.val = ob'.systemBestAsk.map Decimal.val
  exchangeBestBid : ∀ q,
    ob.exchangeBestBid.lookup q = ob'.exchangeBestBid.lookup q
  exchangeBestAsk : ∀ q,
    ob.exchangeBestAsk.lookup q = ob'.exchangeBestAsk.lookup q
  bidLevels : ob.bidLevels = ob'.bidLevels
  askLevels : ob.askLevels = ob'.askLevels
  updateCount : ob.updateCount = ob'.updateCount
  platforms : ∀ q, q ∈ ob.platforms ↔ q ∈ ob'.platforms

-- =================================================== books of equal quotes

/-- In a book without empty levels, a level is what the platforms quote
there, and stands exactly where somebody does. -/
theorem get?_map_get_eq_some_iff {ob : Orderbook} (h : ob.Settled)
    (side : Side) (p : ℚ) (f : String → Option Decimal) :
    ((ob.book side.isBid).get? p).map PlatformSizes.get = some f
      ↔ p ∈ ob.quoted side ∧ (fun q => ob.sizeAt side p q) = f := by
  have hat : ∀ ps, (ob.book side.isBid).get? p = some ps →
      ∀ q, ob.sizeAt side p q = ps.get q := by
    intro ps hps q
    rw [sizeAt, hps, Option.bind_some]
  refine ⟨fun hf => ?_, fun hf => ?_⟩
  · obtain ⟨ps, hps, hget⟩ := Option.map_eq_some_iff.1 hf
    obtain ⟨q, hq⟩ := PlatformSizes.isEmpty_eq_false_iff.1
      (h.live side p ps hps)
    refine ⟨⟨q, by rwa [hat ps hps]⟩, ?_⟩
    simpa only [hat ps hps] using hget
  · obtain ⟨⟨q, hq⟩, hget⟩ := hf
    obtain ⟨size, hsize⟩ := Option.isSome_iff_exists.1 hq
    obtain ⟨ps, hps, -⟩ := Option.bind_eq_some_iff.1 hsize
    simp only [hat ps hps] at hget
    rw [hps, Option.map_some, ← hget]

/-- A book without empty levels counts its ranks. -/
theorem levelCount_eq {ob : Orderbook} (h : ob.Settled) (side : Side) :
    levelCount (ob.book side.isBid)
      = (ob.book side.isBid).ranks.length := by
  unfold levelCount BTreeMap.ranks
  rw [List.length_map, List.filter_eq_self.2]
  intro e he
  have hget := BTreeMap.get?_eq_some_iff.2 ⟨e.1, he, rfl⟩
  rw [h.live side e.1.val e.2 hget]
  rfl

/-- Settled books of equal quotes have the same levels, best prices and
level counts. -/
theorem sameBook_of_quotes {ob ob' : Orderbook} (h : ob.Settled)
    (h' : ob'.Settled) (hq : ∀ q, ob.quotes q = ob'.quotes q) :
    (∀ (side : Side) p,
      ((ob.book side.isBid).get? p).map PlatformSizes.get
        = ((ob'.book side.isBid).get? p).map PlatformSizes.get)
      ∧ ob.systemBestBid.map Decimal.val
          = ob'.systemBestBid.map Decimal.val
      ∧ ob.systemBestAsk.map Decimal.val
          = ob'.systemBestAsk.map Decimal.val
      ∧ ∀ side : Side, levelCount (ob.book side.isBid)
          = levelCount (ob'.book side.isBid) := by
  have hsize : ∀ side p q, ob.sizeAt side p q = ob'.sizeAt side p q :=
    fun side p q => congrFun (congrFun (hq q) side) p
  have hlevels : ∀ (side : Side) p,
      ((ob.book side.isBid).get? p).map PlatformSizes.get
        = ((ob'.book side.isBid).get? p).map PlatformSizes.get := by
    intro side p
    refine Option.ext fun f => ?_
    rw [get?_map_get_eq_some_iff h, get?_map_get_eq_some_iff h',
      quoted_congr hq]
    simp only [hsize]
  refine ⟨hlevels, ?_, ?_, fun side => ?_⟩
  · have hbest := h.bestBid
    rw [quoted_congr hq] at hbest
    exact hbest.unique h'.bestBid
  · have hbest := h.bestAsk
    rw [quoted_congr hq] at hbest
    exact hbest.unique h'.bestAsk
  · have hranks : (ob.book side.isBid).ranks
        = (ob'.book side.isBid).ranks :=
      BTreeMap.ranks_eq_of_forall_mem fun p => by
        have := congrArg Option.isSome (hlevels side p)
        rwa [Option.isSome_map, Option.isSome_map] at this
    rw [levelCount_eq h, levelCount_eq h', hranks]

-- ================================================================ one book

section Book

variable {us vs : List NormalizedOrderbook}

/-- The quotes of a platform see its own messages only. -/
theorem quotes_foldl_filter (ob : Orderbook)
    (us : List NormalizedOrderbook) (q : String) :
    (us.foldl (Orderbook.apply D) ob).quotes q
      = (us.filter fun msg => msg.platform = q).foldl (Quotes.step D q)
          (ob.quotes q) :=
  foldl_component (fun ob => Orderbook.quotes ob q) (Orderbook.apply D)
    (Quotes.step D q) (fun msg => msg.platform = q)
    (fun ob msg => by
      rw [quotes_apply]
      unfold Quotes.step
      by_cases hq : msg.platform = q
      · simp [hq]
      · simp [hq]) ob us

/-- So do the best prices it reported. -/
theorem exchangeBbo_foldl_filter (ob : Orderbook)
    (us : List NormalizedOrderbook) (q : String) :
    (us.foldl (Orderbook.apply D) ob).exchangeBestBid.lookup q
        = (us.filter fun msg => msg.platform = q).foldl
            (fun o msg => msg.bestBid.or o) (ob.exchangeBestBid.lookup q)
      ∧ (us.foldl (Orderbook.apply D) ob).exchangeBestAsk.lookup q
        = (us.filter fun msg => msg.platform = q).foldl
            (fun o msg => msg.bestAsk.or o)
            (ob.exchangeBestAsk.lookup q) := by
  constructor
  · exact foldl_component (fun ob => AList.lookup q ob.exchangeBestBid)
      (Orderbook.apply D) (fun o msg => msg.bestBid.or o)
      (fun msg => msg.platform = q)
      (fun ob msg => by
        simpa using lookup_exchangeBestBid_apply D ob msg q) ob us
  · exact foldl_component (fun ob => AList.lookup q ob.exchangeBestAsk)
      (Orderbook.apply D) (fun o msg => msg.bestAsk.or o)
      (fun msg => msg.platform = q)
      (fun ob msg => by
        simpa using lookup_exchangeBestAsk_apply D ob msg q) ob us

/-- The platforms of a book are the ones that sent something. -/
theorem mem_platforms_foldl (ob : Orderbook)
    (us : List NormalizedOrderbook) (q : String) :
    q ∈ (us.foldl (Orderbook.apply D) ob).platforms
      ↔ q ∈ us.map (·.platform) ∨ q ∈ ob.platforms := by
  induction us generalizing ob with
  | nil => simp
  | cons msg us ih =>
      rw [List.foldl_cons, ih, mem_platforms_apply, List.map_cons,
        List.mem_cons]
      tauto

/-- Two runs of one book with the same feeds end in the same book. -/
theorem sameBook_foldl (clobTokenId marketId : String)
    (h : ∀ q, us.filter (fun msg => msg.platform = q)
      = vs.filter (fun msg => msg.platform = q)) :
    SameBook (us.foldl (Orderbook.apply D) (.new clobTokenId marketId))
      (vs.foldl (Orderbook.apply D) (.new clobTokenId marketId)) := by
  have hperm : us.Perm vs := perm_of_forall_filter_eq (·.platform) h
  have hvalid := valid_foldl_apply D (valid_new clobTokenId marketId)
  obtain ⟨hlevels, hbid, hask, hcount⟩ :=
    sameBook_of_quotes (hvalid us).settled (hvalid vs).settled fun q => by
      rw [quotes_foldl_filter, quotes_foldl_filter, h]
  refine ⟨hlevels, hbid, hask, fun q => ?_, fun q => ?_, hcount .buy,
    hcount .sell, ?_, fun q => ?_⟩
  · rw [(exchangeBbo_foldl_filter D _ us q).1,
      (exchangeBbo_foldl_filter D _ vs q).1, h]
  · rw [(exchangeBbo_foldl_filter D _ us q).2,
      (exchangeBbo_foldl_filter D _ vs q).2, h]
  · rw [updateCount_foldl_apply, updateCount_foldl_apply,
      hperm.length_eq]
  · rw [mem_platforms_foldl, mem_platforms_foldl,
      (hperm.map (·.platform)).mem_iff]

end Book

-- =============================================================== the store

section Store

variable {xs ys : List NormalizedOrderbook}

/-- The own messages of an asset merge the same feeds. -/
theorem SameFeeds.ownMessages (h : SameFeeds xs ys)
    (k : String × String) (q : String) :
    (Wup.ownMessages k xs).filter (fun msg => msg.platform = q)
      = (Wup.ownMessages k ys).filter (fun msg => msg.platform = q) := by
  have hfeed : ∀ zs : List NormalizedOrderbook,
      (Wup.ownMessages k zs).filter (fun msg => msg.platform = q)
        = zs.filter fun msg => msg.feed = (q, k) := by
    intro zs
    rw [Wup.ownMessages, List.filter_filter]
    refine List.filter_congr fun msg _ => ?_
    simp [NormalizedOrderbook.feed]
  rw [hfeed, hfeed, h]

theorem SameFeeds.perm (h : SameFeeds xs ys) : xs.Perm ys :=
  perm_of_forall_filter_eq NormalizedOrderbook.feed h

/-- Platforms do not interfere: two runs that merge the same feeds give
the same books and the same counters. -/
theorem interleavings_agree (h : SameFeeds xs ys) :
    (∀ m a, Option.Rel SameBook ((runStore D xs).bookAt m a)
        ((runStore D ys).bookAt m a))
      ∧ (runStore D xs).totalSnapshots = (runStore D ys).totalSnapshots
      ∧ (runStore D xs).totalDeltas = (runStore D ys).totalDeltas := by
  refine ⟨fun m a => ?_, ?_, ?_⟩
  · rw [OrderbookStore.bookAt_runStore, OrderbookStore.bookAt_runStore]
    have hplatform := h.ownMessages (m, a)
    have hperm : (ownMessages (m, a) xs).Perm (ownMessages (m, a) ys) :=
      perm_of_forall_filter_eq (·.platform) hplatform
    have hnil : ownMessages (m, a) xs = []
        ↔ ownMessages (m, a) ys = [] := by
      rw [← List.length_eq_zero_iff, hperm.length_eq,
        List.length_eq_zero_iff]
    unfold family
    by_cases hxs : ownMessages (m, a) xs = []
    · rw [if_pos hxs, if_pos (hnil.1 hxs)]
      exact Option.Rel.none
    · rw [if_neg hxs, if_neg (hnil.not.1 hxs)]
      exact Option.Rel.some (sameBook_foldl D a m hplatform)
  · rw [OrderbookStore.totalSnapshots_runStore,
      OrderbookStore.totalSnapshots_runStore, h.perm.countP_eq]
  · rw [OrderbookStore.totalDeltas_runStore,
      OrderbookStore.totalDeltas_runStore, h.perm.countP_eq]

end Store

/-- Two platforms quote one asset, in either order. -/
theorem interleavings_agree_two_platforms :
    let kalshi := NormalizedOrderbook.deltaOf "kalshi" "m" "t"
      [⟨.buy, "0.50", "3"⟩]
    let polymarket := NormalizedOrderbook.deltaOf "polymarket" "m" "t"
      [⟨.buy, "0.5", "10"⟩]
    ∀ m a, Option.Rel SameBook
      ((runStore fixedPoint [kalshi, polymarket]).bookAt m a)
      ((runStore fixedPoint [polymarket, kalshi]).bookAt m a) := by
  intro kalshi polymarket
  have hne : kalshi.feed ≠ polymarket.feed := by decide
  have hfeeds : SameFeeds [kalshi, polymarket] [polymarket, kalshi] := by
    intro c
    by_cases hk : kalshi.feed = c
    · have hp : polymarket.feed ≠ c := fun hp => hne (hk.trans hp.symm)
      simp [hk, hp]
    · by_cases hp : polymarket.feed = c <;> simp [hk, hp]
  exact (interleavings_agree fixedPoint hfeeds).1

end Wup
