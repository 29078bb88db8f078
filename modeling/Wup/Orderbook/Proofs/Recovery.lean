/-
Snapshots make the past irrelevant.

A snapshot of a platform starts from nothing, so what the platform quotes
afterwards no longer depends on what it said before. Two services with
whatever pasts, one that was restarted and one that was not, or two that
missed different messages, therefore have the same levels of an asset once
each platform that has spoken of it has sent a snapshot that both took
(`snapshots_heal`), and keep them as long as they take the same messages.

The best prices a platform reports are not cleared by a snapshot; they
agree from the first message on that reports one.
-/
import Wup.Orderbook.Proofs.Feeds

namespace Wup

open Orderbook

variable (D : RustDecimal)

/-- After a step that forgets the state, it does not matter where a fold
started. -/
theorem foldl_forget {S M : Type*} {step : S → M → S} {xs : List M} {x : M}
    (hx : x ∈ xs) (hforget : ∀ s t, step s x = step t x) (s t : S) :
    xs.foldl step s = xs.foldl step t := by
  obtain ⟨before, after, rfl⟩ := List.append_of_mem hx
  rw [List.foldl_append, List.foldl_append, List.foldl_cons, List.foldl_cons,
    hforget]

-- ============================================================ one platform

/-- The platform has sent a snapshot of the asset. -/
def Snapshots (feed : String × String × String)
    (msgs : List NormalizedOrderbook) : Prop :=
  ∃ msg ∈ msgs, msg.feed = feed ∧ msg.messageType = .snapshot

/-- It has reported a best bid. -/
def ReportsBid (feed : String × String × String)
    (msgs : List NormalizedOrderbook) : Prop :=
  ∃ msg ∈ msgs, msg.feed = feed ∧ msg.bestBid.isSome = true

/-- It has reported a best ask. -/
def ReportsAsk (feed : String × String × String)
    (msgs : List NormalizedOrderbook) : Prop :=
  ∃ msg ∈ msgs, msg.feed = feed ∧ msg.bestAsk.isSome = true

/-- It has said anything of the asset. -/
def Speaks (feed : String × String × String)
    (msgs : List NormalizedOrderbook) : Prop :=
  ∃ msg ∈ msgs, msg.feed = feed

section Platform

variable {m a q : String} {us vs : List NormalizedOrderbook}

/-- The messages of one platform about one asset. -/
def fed (feed : String × String × String) (msgs : List NormalizedOrderbook) :
    List NormalizedOrderbook :=
  msgs.filter fun msg => msg.feed = feed

theorem fed_append (feed : String × String × String)
    (xs ys : List NormalizedOrderbook) :
    fed feed (xs ++ ys) = fed feed xs ++ fed feed ys :=
  List.filter_append ..

theorem mem_fed {feed : String × String × String}
    {msg : NormalizedOrderbook} (h : msg ∈ us) (hfeed : msg.feed = feed) :
    msg ∈ fed feed us :=
  List.mem_filter.2 ⟨h, decide_eq_true hfeed⟩

theorem fed_of_silent {feed : String × String × String}
    (h : ¬ Speaks feed us) : fed feed us = [] := by
  unfold fed
  rw [List.filter_eq_nil_iff]
  intro msg hmsg hfeed
  exact h ⟨msg, hmsg, of_decide_eq_true hfeed⟩

theorem ownMessages_platform :
    (ownMessages (m, a) us).filter (fun msg => msg.platform = q)
      = fed (q, m, a) us := by
  unfold ownMessages fed
  rw [List.filter_filter]
  refine List.filter_congr fun msg _ => ?_
  simp [NormalizedOrderbook.feed]

/-- What is folded over a feed agrees on two pasts if the feed forgets
them, or there are none. -/
theorem foldl_fed {S : Type*} {step : S → NormalizedOrderbook → S}
    {feed : String × String × String} {xs ys zs : List NormalizedOrderbook}
    (s : S) (h : Speaks feed xs ∨ Speaks feed ys →
      ∃ msg ∈ fed feed zs, ∀ s t, step s msg = step t msg) :
    (fed feed (xs ++ zs)).foldl step s
      = (fed feed (ys ++ zs)).foldl step s := by
  rw [fed_append, fed_append, List.foldl_append, List.foldl_append]
  by_cases hspeaks : Speaks feed xs ∨ Speaks feed ys
  · obtain ⟨msg, hmsg, hforget⟩ := h hspeaks
    exact foldl_forget hmsg hforget _ _
  · rw [not_or] at hspeaks
    rw [fed_of_silent hspeaks.1, fed_of_silent hspeaks.2]

end Platform

-- ================================================================ the book

/-- Two books of the same levels and platforms. -/
structure SameLevels (ob ob' : Orderbook) : Prop where
  levels : ∀ (side : Side) p,
    ((ob.book side.isBid).get? p).map PlatformSizes.get
      = ((ob'.book side.isBid).get? p).map PlatformSizes.get
  systemBestBid :
    ob.systemBestBid.map Decimal.val = ob'.systemBestBid.map Decimal.val
  systemBestAsk :
    ob.systemBestAsk.map Decimal.val = ob'.systemBestAsk.map Decimal.val
  bidLevels : ob.bidLevels = ob'.bidLevels
  askLevels : ob.askLevels = ob'.askLevels
  platforms : ∀ q, q ∈ ob.platforms ↔ q ∈ ob'.platforms

/-- Books whose platforms agree, and the best prices some of them
reported. -/
structure Healed (bids asks : String → Prop) (ob ob' : Orderbook) :
    Prop where
  same : SameLevels ob ob'
  exchangeBestBid : ∀ q, bids q →
    ob.exchangeBestBid.lookup q = ob'.exchangeBestBid.lookup q
  exchangeBestAsk : ∀ q, asks q →
    ob.exchangeBestAsk.lookup q = ob'.exchangeBestAsk.lookup q

section Book

variable {m a : String} {xs ys zs : List NormalizedOrderbook}

/-- The book of an asset after a run, if it has one. -/
theorem bookAt_of_ne (h : ownMessages (m, a) xs ≠ []) :
    (runStore D xs).bookAt m a
      = some ((ownMessages (m, a) xs).foldl (Orderbook.apply D)
        (.new a m)) := by
  rw [OrderbookStore.bookAt_runStore, family, if_neg h]

/-- The quotes of a platform that has sent a snapshot. -/
theorem quotes_heal {q : String}
    (h : Speaks (q, m, a) xs ∨ Speaks (q, m, a) ys →
      Snapshots (q, m, a) zs) :
    ((ownMessages (m, a) (xs ++ zs)).foldl (Orderbook.apply D)
        (.new a m)).quotes q
      = ((ownMessages (m, a) (ys ++ zs)).foldl (Orderbook.apply D)
        (.new a m)).quotes q := by
  rw [quotes_foldl_filter, quotes_foldl_filter, ownMessages_platform,
    ownMessages_platform]
  refine foldl_fed _ fun hspeaks => ?_
  obtain ⟨msg, hmsg, hfeed, hsnapshot⟩ := h hspeaks
  refine ⟨msg, mem_fed hmsg hfeed, fun f g => ?_⟩
  have hq : msg.platform = q := congrArg Prod.fst hfeed
  unfold Quotes.step
  rw [if_pos hq, if_pos hq, hsnapshot]

/-- A platform that is listed has spoken. -/
theorem speaks_of_mem_platforms {q : String}
    {us : List NormalizedOrderbook}
    (h : q ∈ (ownMessages (m, a) us).map (·.platform)) :
    Speaks (q, m, a) us := by
  obtain ⟨msg, hmsg, rfl⟩ := List.mem_map.1 h
  obtain ⟨hmem, hkey⟩ := List.mem_filter.1 hmsg
  exact ⟨msg, hmem, congrArg (Prod.mk _) (of_decide_eq_true hkey)⟩

theorem mem_platforms_of_speaks {q : String}
    {us : List NormalizedOrderbook} (h : Speaks (q, m, a) us) :
    q ∈ (ownMessages (m, a) us).map (·.platform) := by
  obtain ⟨msg, hmsg, hfeed⟩ := h
  obtain ⟨rfl, hkey⟩ := Prod.mk.inj hfeed
  exact List.mem_map_of_mem
    (List.mem_filter.2 ⟨hmsg, decide_eq_true hkey⟩)

/-- The books of two runs over an asset with the same end. -/
theorem sameLevels_heal
    (h : ∀ q, Speaks (q, m, a) xs ∨ Speaks (q, m, a) ys →
      Snapshots (q, m, a) zs) :
    SameLevels
      ((ownMessages (m, a) (xs ++ zs)).foldl (Orderbook.apply D) (.new a m))
      ((ownMessages (m, a) (ys ++ zs)).foldl (Orderbook.apply D)
        (.new a m)) := by
  have hvalid := valid_foldl_apply D (valid_new a m)
  obtain ⟨hlevels, hbid, hask, hcount⟩ := sameBook_of_quotes
    (hvalid (ownMessages (m, a) (xs ++ zs))).settled
    (hvalid (ownMessages (m, a) (ys ++ zs))).settled
    fun q => quotes_heal D (h q)
  refine ⟨hlevels, hbid, hask, hcount .buy, hcount .sell, fun q => ?_⟩
  -- who spoke before has sent a snapshot since
  have hplatforms : ∀ us,
      (∀ q, Speaks (q, m, a) us → Snapshots (q, m, a) zs) →
      (q ∈ ((ownMessages (m, a) (us ++ zs)).foldl (Orderbook.apply D)
          (.new a m)).platforms
        ↔ q ∈ (ownMessages (m, a) zs).map (·.platform)) := by
    intro us hus
    have happend : ownMessages (m, a) (us ++ zs)
        = ownMessages (m, a) us ++ ownMessages (m, a) zs :=
      List.filter_append ..
    rw [mem_platforms_foldl, happend, List.map_append, List.mem_append]
    constructor
    · rintro ((hold | hnew) | hnone)
      · obtain ⟨msg, hmsg, hfeed, -⟩ := hus q (speaks_of_mem_platforms hold)
        exact mem_platforms_of_speaks ⟨msg, hmsg, hfeed⟩
      · exact hnew
      · cases hnone
    · exact fun hnew => .inl (.inr hnew)
  rw [hplatforms xs fun q hq => h q (.inl hq),
    hplatforms ys fun q hq => h q (.inr hq)]

/-- The best bid a platform reports. -/
theorem exchangeBestBid_heal {q : String} (h : ReportsBid (q, m, a) zs) :
    ((ownMessages (m, a) (xs ++ zs)).foldl (Orderbook.apply D)
        (.new a m)).exchangeBestBid.lookup q
      = ((ownMessages (m, a) (ys ++ zs)).foldl (Orderbook.apply D)
        (.new a m)).exchangeBestBid.lookup q := by
  rw [(exchangeBbo_foldl_filter D _ _ q).1,
    (exchangeBbo_foldl_filter D _ _ q).1, ownMessages_platform,
    ownMessages_platform]
  obtain ⟨msg, hmsg, hfeed, hsome⟩ := h
  obtain ⟨bid, hbid⟩ := Option.isSome_iff_exists.1 hsome
  refine foldl_fed _ fun _ => ⟨msg, mem_fed hmsg hfeed, fun o o' => ?_⟩
  rw [hbid, Option.some_or, Option.some_or]

/-- The best ask a platform reports. -/
theorem exchangeBestAsk_heal {q : String} (h : ReportsAsk (q, m, a) zs) :
    ((ownMessages (m, a) (xs ++ zs)).foldl (Orderbook.apply D)
        (.new a m)).exchangeBestAsk.lookup q
      = ((ownMessages (m, a) (ys ++ zs)).foldl (Orderbook.apply D)
        (.new a m)).exchangeBestAsk.lookup q := by
  rw [(exchangeBbo_foldl_filter D _ _ q).2,
    (exchangeBbo_foldl_filter D _ _ q).2, ownMessages_platform,
    ownMessages_platform]
  obtain ⟨msg, hmsg, hfeed, hsome⟩ := h
  obtain ⟨ask, hask⟩ := Option.isSome_iff_exists.1 hsome
  refine foldl_fed _ fun _ => ⟨msg, mem_fed hmsg hfeed, fun o o' => ?_⟩
  rw [hask, Option.some_or, Option.some_or]

end Book

/-- Two services with whatever pasts agree on an asset after the same
messages, if every platform that had spoken of it sends a snapshot among
them: on the levels, the best prices and the platforms, and on the best
prices of the platforms that report any. -/
theorem snapshots_heal (m a : String) (xs ys zs : List NormalizedOrderbook)
    (h : ∀ q, Speaks (q, m, a) xs ∨ Speaks (q, m, a) ys →
      Snapshots (q, m, a) zs) :
    Option.Rel
      (Healed (fun q => ReportsBid (q, m, a) zs)
        fun q => ReportsAsk (q, m, a) zs)
      ((runStore D (xs ++ zs)).bookAt m a)
      ((runStore D (ys ++ zs)).bookAt m a) := by
  have happend : ∀ us : List NormalizedOrderbook,
      ownMessages (m, a) (us ++ zs)
        = ownMessages (m, a) us ++ ownMessages (m, a) zs :=
    fun us => List.filter_append ..
  by_cases hzs : ownMessages (m, a) zs = []
  · -- nobody has ever spoken of the asset
    have hnone : ∀ us, (∀ q, Speaks (q, m, a) us → Snapshots (q, m, a) zs) →
        (runStore D (us ++ zs)).bookAt m a = none := by
      intro us hus
      have hown : ownMessages (m, a) us = [] := by
        refine List.eq_nil_iff_forall_not_mem.2 fun msg hmsg => ?_
        obtain ⟨msg', hmsg', hfeed, -⟩ := hus msg.platform
          (speaks_of_mem_platforms (List.mem_map_of_mem hmsg))
        have hmem := mem_platforms_of_speaks ⟨msg', hmsg', hfeed⟩
        rw [hzs] at hmem
        cases hmem
      rw [OrderbookStore.bookAt_runStore, family, happend, hown, hzs]
      rfl
    rw [hnone xs fun q hq => h q (.inl hq),
      hnone ys fun q hq => h q (.inr hq)]
    exact Option.Rel.none
  · have hne : ∀ us : List NormalizedOrderbook,
        ownMessages (m, a) (us ++ zs) ≠ [] := by
      intro us hnil
      rw [happend] at hnil
      exact hzs (List.append_eq_nil_iff.1 hnil).2
    rw [bookAt_of_ne D (hne xs), bookAt_of_ne D (hne ys)]
    exact Option.Rel.some ⟨sameLevels_heal D h,
      fun q hq => exchangeBestBid_heal D hq,
      fun q hq => exchangeBestAsk_heal D hq⟩

/-- A service that was restarted after a delta, and one that was not. -/
theorem snapshots_heal_restart :
    let before := NormalizedOrderbook.deltaOf "polymarket" "m" "t"
      [⟨.buy, "0.5", "10"⟩]
    let snapshot : NormalizedOrderbook :=
      { NormalizedOrderbook.deltaOf "polymarket" "m" "t" [] with
        messageType := .snapshot
        bids := some [⟨"0.4", "3"⟩] }
    ∃ ob ob', (runStore fixedPoint [before, snapshot]).bookAt "m" "t"
        = some ob
      ∧ (runStore fixedPoint [snapshot]).bookAt "m" "t" = some ob'
      ∧ SameLevels ob ob' := by
  intro before snapshot
  have hheal := snapshots_heal fixedPoint "m" "t" [before] [] [snapshot] (by
    rintro q (⟨msg, hmsg, hfeed⟩ | ⟨msg, hmsg, -⟩)
    · rw [List.mem_singleton.1 hmsg] at hfeed
      exact ⟨snapshot, List.mem_singleton.2 rfl, hfeed, rfl⟩
    · cases hmsg)
  have hne : ∀ us, ownMessages ("m", "t") (us ++ [snapshot]) ≠ [] := by
    intro us hnil
    have hmem : snapshot ∈ ownMessages ("m", "t") (us ++ [snapshot]) :=
      List.mem_filter.2 ⟨List.mem_append_right _ (List.mem_singleton.2 rfl),
        rfl⟩
    rw [hnil] at hmem
    cases hmem
  have hbook := bookAt_of_ne fixedPoint (hne [before])
  have hbook' := bookAt_of_ne fixedPoint (hne [])
  rw [hbook, hbook'] at hheal
  refine ⟨_, _, hbook, hbook', ?_⟩
  cases hheal with
  | some hsame => exact hsame.same

end Wup
