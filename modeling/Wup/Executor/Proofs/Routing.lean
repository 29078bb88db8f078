/-
Where smart routing sends an order.

The router searches the cached prices of all platforms first and asks
afterwards whether the winner has an executor. The search over all and the
search over the registered platforms agree exactly when a registered quote
leads against every unregistered one (`Favoured`); otherwise a registered
platform with a quote is passed over and the order is refused.
-/
import Wup.Executor.Router

namespace Wup.Executor

-- ===================================================== what routing is for

/-- The cached price a platform is considered at: its ask for a buy, its
bid for a sell. -/
def cachedPrice (cache : BboCache) (req : OrderRequest) (platform : String) :
    Option Decimal :=
  (cache.getPlatformBbo req.marketId req.tokenId platform).bind fun bbo =>
    match req.side with
    | .buy => bbo.2
    | .sell => bbo.1

/-- No worse a price for the order: no higher to buy, no lower to sell. -/
def NoWorse (side : OrderSide) (price other : Decimal) : Prop :=
  match side with
  | .buy => price.val ≤ other.val
  | .sell => other.val ≤ price.val

namespace SmartRouter

/-- There is an executor for the platform. -/
def Registered (router : SmartRouter) (platform : String) : Prop :=
  (router.executors.lookup platform).isSome = true

instance (router : SmartRouter) (platform : String) :
    Decidable (router.Registered platform) :=
  inferInstanceAs (Decidable (_ = true))

/-- The platform has an executor and a cached price for the order. -/
def Executable (router : SmartRouter) (req : OrderRequest)
    (platform : String) : Prop :=
  router.Registered platform
    ∧ (cachedPrice router.bboCache req platform).isSome = true

/-- The order goes to the registered platform of best cached price, and is
refused for want of a platform only where none can execute it. -/
structure RoutesBest (router : SmartRouter) (req : OrderRequest) :
    Prop where
  routed : (∃ platform, router.Executable req platform) →
    ∃ platform executor price,
      router.executors.lookup platform = some executor
        ∧ cachedPrice router.bboCache req platform = some price
        ∧ (∀ other v, router.Registered other →
            cachedPrice router.bboCache req other = some v →
            NoWorse req.side price v)
        ∧ (router.submitOrder req).calls
          = [(platform, { req with platform := some platform })]
        ∧ (router.submitOrder req).result
          = (executor.submitOrder
              { req with platform := some platform }).map fun response =>
                { response with routedPrice := some price }
  refused :
    -- the verdict is the router's own
    (∀ platform executor sent,
      router.executors.lookup platform = some executor →
      executor.submitOrder sent ≠ .error .noAvailablePlatform) →
    (router.submitOrder req).result = .error .noAvailablePlatform →
    ¬ ∃ platform, router.Executable req platform

end SmartRouter

-- ============================================================== the search

/-- The cached prices of all platforms for an order, in the order the map
yields them. -/
def quotes (cache : BboCache) (req : OrderRequest) :
    List (String × Decimal) :=
  match cache.cache.lookup (req.marketId, req.tokenId) with
  | none => []
  | some entry =>
      let prices := match req.side with
        | .buy => entry.bestAsks
        | .sell => entry.bestBids
      prices.entries.map fun e => (e.1, e.2)

/-- The comparison of the search: a buy keeps the first of equal asks, a
sell the last of equal bids. -/
def beats (side : OrderSide) (e best : String × Decimal) : Bool :=
  match side with
  | .buy => decide (e.2.val < best.2.val)
  | .sell => !decide (e.2.val < best.2.val)

/-- If any registered platform has a cached price, then one of them leads
against every platform without an executor. -/
def SmartRouter.Favoured (router : SmartRouter) (req : OrderRequest) :
    Prop :=
  (∃ platform, router.Executable req platform) →
    ∃ e, router.Registered e.1
      ∧ Leads (beats req.side) e (fun x => ¬router.Registered x.1)
          (quotes router.bboCache req)

theorem ranks_beats (side : OrderSide) : Ranks (beats side) := by
  cases side with
  | buy =>
      refine ⟨fun hxy hyz => ?_, fun hxb hyb => ?_⟩
      · simp only [beats, decide_eq_true_eq] at hxy hyz ⊢
        exact hxy.trans hyz
      · simp only [beats, decide_eq_true_eq, decide_eq_false_iff_not,
          not_lt] at hxb hyb ⊢
        exact hxb.trans_le hyb
  | sell =>
      refine ⟨fun hxy hyz => ?_, fun hxb hyb => ?_⟩
      · simp only [beats, Bool.not_eq_true', decide_eq_false_iff_not,
          not_lt] at hxy hyz ⊢
        exact hyz.trans hxy
      · simp only [beats, Bool.not_eq_true', Bool.not_eq_false',
          decide_eq_true_eq, decide_eq_false_iff_not, not_lt]
          at hxb hyb ⊢
        exact hyb.le.trans hxb

/-- What beats a price, or is not beaten by it, is no worse. -/
theorem noWorse_of_beats {side : OrderSide} {e x : String × Decimal}
    (h : beats side e x = true ∨ beats side x e = false) :
    NoWorse side e.2 x.2 := by
  cases side with
  | buy =>
      simp only [beats, decide_eq_true_eq, decide_eq_false_iff_not,
        not_lt] at h
      exact h.elim le_of_lt id
  | sell =>
      simp only [beats, Bool.not_eq_true', Bool.not_eq_false',
        decide_eq_true_eq, decide_eq_false_iff_not, not_lt] at h
      exact h.elim id le_of_lt

theorem mem_quotes_iff {cache : BboCache} {req : OrderRequest}
    {platform : String} {price : Decimal} :
    (platform, price) ∈ quotes cache req
      ↔ cachedPrice cache req platform = some price := by
  unfold quotes cachedPrice BboCache.getPlatformBbo
  cases cache.cache.lookup (req.marketId, req.tokenId) with
  | none => simp
  | some entry =>
      rw [Option.map_some, Option.bind_some]
      have hmem : ∀ prices : HashMap String Decimal,
          (platform, price) ∈ prices.entries.map (fun e => (e.1, e.2))
            ↔ prices.lookup platform = some price := by
        intro prices
        rw [List.mem_map]
        refine ⟨fun h => ?_, fun h => ?_⟩
        · obtain ⟨⟨k, v⟩, he, hkv⟩ := h
          cases hkv
          exact AList.mem_lookup_iff.2 he
        · exact ⟨⟨platform, price⟩, AList.mem_lookup_iff.1 h, rfl⟩
      cases req.side with
      | buy => exact hmem entry.bestAsks
      | sell => exact hmem entry.bestBids

/-- The winner of the search is no worse than any cached price. -/
theorem noWorse_of_search {cache : BboCache} {req : OrderRequest}
    {best : String × Decimal}
    (h : search (beats req.side) (quotes cache req) = some best)
    {other : String} {v : Decimal}
    (hv : cachedPrice cache req other = some v) :
    NoWorse req.side best.2 v := by
  obtain ⟨pre, post, hsplit, hpre, hpost⟩ :=
    search_split (ranks_beats req.side) h
  have hmem := mem_quotes_iff.2 hv
  rw [hsplit, List.mem_append, List.mem_cons] at hmem
  rcases hmem with hmem | hmem | hmem
  · exact noWorse_of_beats (e := best) (x := (other, v))
      (Or.inl (hpre _ hmem trivial))
  · rw [← hmem]
    cases req.side with
    | buy => exact le_rfl
    | sell => exact le_rfl
  · exact noWorse_of_beats (e := best) (x := (other, v))
      (Or.inr (hpost _ hmem trivial))

-- ============================================================== the router

section Router

variable {router : SmartRouter} {req : OrderRequest}

theorem findBestPlatform_eq :
    router.findBestPlatform req.marketId req.tokenId req.side
      = (search (beats req.side) (quotes router.bboCache req)).filter
          fun best => (router.executors.lookup best.1).isSome := by
  unfold SmartRouter.findBestPlatform quotes
  cases hside : req.side with
  | buy =>
      show (router.bboCache.bestAsk _ _).filter _ = _
      unfold BboCache.bestAsk
      cases router.bboCache.cache.lookup (req.marketId, req.tokenId) with
      | none => rfl
      | some entry => rfl
  | sell =>
      show (router.bboCache.bestBid _ _).filter _ = _
      unfold BboCache.bestBid
      cases router.bboCache.cache.lookup (req.marketId, req.tokenId) with
      | none => rfl
      | some entry => rfl

/-- A registered winner is handed the order. -/
theorem submitOrder_of_found (hreq : req.platform = none)
    {best : String × Decimal} {executor : Executor}
    (hbest : search (beats req.side) (quotes router.bboCache req)
      = some best)
    (hexec : router.executors.lookup best.1 = some executor) :
    router.submitOrder req
      = ⟨(executor.submitOrder { req with platform := some best.1 }).map
          fun response => { response with routedPrice := some best.2 },
        [(best.1, { req with platform := some best.1 })]⟩ := by
  unfold SmartRouter.submitOrder
  have hfilter : (some best).filter
      (fun best => (router.executors.lookup best.1).isSome) = some best :=
    Option.filter_some_pos (by rw [hexec]; rfl)
  rw [hreq]
  simp only [findBestPlatform_eq, hbest, hfilter, SmartRouter.getExecutor,
    hexec]

/-- Without a registered winner the order is refused. -/
theorem submitOrder_of_missed (hreq : req.platform = none)
    (hmiss : ¬ ∃ best, search (beats req.side)
        (quotes router.bboCache req) = some best
      ∧ router.Registered best.1) :
    router.submitOrder req = ⟨.error .noAvailablePlatform, []⟩ := by
  have hfind :
      router.findBestPlatform req.marketId req.tokenId req.side = none := by
    rw [findBestPlatform_eq, Option.filter_eq_none_iff]
    intro best hbest hreg
    exact hmiss ⟨best, hbest, hreg⟩
  unfold SmartRouter.submitOrder
  rw [hreq]
  simp only [hfind]

/-- Smart routing serves an order as it should exactly when the best
registered quote is ahead of every quote without an executor. -/
theorem routesBest_iff_favoured (hreq : req.platform = none) :
    router.RoutesBest req ↔ router.Favoured req := by
  have hgood : (∃ best, search (beats req.side)
        (quotes router.bboCache req) = some best
      ∧ router.Registered best.1)
      ↔ ∃ e, router.Registered e.1
        ∧ Leads (beats req.side) e (fun x => ¬router.Registered x.1)
            (quotes router.bboCache req) :=
    search_good_iff (ranks_beats req.side)
  refine ⟨fun h hsome => ?_, fun h => ?_⟩
  · obtain ⟨platform, executor, price, -, -, -, hcalls, -⟩ := h.routed hsome
    refine hgood.1 ?_
    by_contra hmiss
    rw [submitOrder_of_missed hreq hmiss] at hcalls
    cases hcalls
  · by_cases hfound : ∃ best, search (beats req.side)
        (quotes router.bboCache req) = some best
      ∧ router.Registered best.1
    · obtain ⟨best, hbest, hreg⟩ := hfound
      obtain ⟨executor, hexec⟩ := Option.isSome_iff_exists.1 hreg
      have hsubmit := submitOrder_of_found hreq hbest hexec
      refine ⟨fun _ => ⟨best.1, executor, best.2, hexec, ?_, ?_, ?_, ?_⟩,
        ?_⟩
      · obtain ⟨pre, post, hsplit, -⟩ :=
          search_split (ranks_beats req.side) hbest
        refine mem_quotes_iff.1 ?_
        rw [hsplit]
        simp
      · intro other v _ hv
        exact noWorse_of_search hbest hv
      · rw [hsubmit]
      · rw [hsubmit]
      · intro hown hresult
        rw [hsubmit] at hresult
        cases hanswer : executor.submitOrder
            { req with platform := some best.1 } with
        | ok response =>
            rw [hanswer] at hresult
            cases hresult
        | error e =>
            rw [hanswer] at hresult
            cases hresult
            exact absurd hanswer (hown best.1 executor _ hexec)
    · have hnone : ¬ ∃ platform, router.Executable req platform :=
        fun hsome => hfound (hgood.2 (h hsome))
      exact ⟨fun hsome => absurd hsome hnone, fun _ _ => hnone⟩

end Router

-- ===================================================== one executor of two

/-- A cache with one ask each of kalshi and polymarket. -/
def twoAsks (kalshi polymarket : String) : BboCache :=
  (BboCache.new.handleChange fixedPoint
    ⟨"m", "t", [⟨"sell", kalshi, [⟨"kalshi", "10"⟩]⟩,
      ⟨"sell", polymarket, [⟨"polymarket", "10"⟩]⟩]⟩).1

/-- An executor that opens every order. -/
def acceptAll (platform : String) : Executor where
  platformName := platform
  submitOrder req := .ok ⟨"1", platform, .opened, none, req.size, none⟩

/-- A market buy of 50 USDC without a platform. -/
def marketBuy : OrderRequest where
  marketId := "m"
  tokenId := "t"
  side := .buy
  orderType := .default
  platform := none
  price := none
  size := none
  amount := some ⟨50, 0⟩
  expiration := none
  postOnly := none
  tickSize := none

/-- The better ask of a platform without an executor makes the router
refuse an order that the other platform could execute. -/
theorem unregistered_ask_blocks_order :
    ¬ ((SmartRouter.new (twoAsks "0.4" "0.5")).register
      (acceptAll "polymarket")).RoutesBest marketBuy := by
  intro h
  obtain ⟨platform, executor, price, -, -, -, hcalls, -⟩ :=
    h.routed ⟨"polymarket", by decide +kernel, by decide +kernel⟩
  have hnone : (((SmartRouter.new (twoAsks "0.4" "0.5")).register
      (acceptAll "polymarket")).submitOrder marketBuy).calls = [] := by
    decide +kernel
  rw [hnone] at hcalls
  cases hcalls

/-- With the asks the other way round the order goes through. -/
theorem registered_ask_routed :
    ((SmartRouter.new (twoAsks "0.5" "0.4")).register
      (acceptAll "polymarket")).RoutesBest marketBuy := by
  refine (routesBest_iff_favoured rfl).2 fun _ =>
    ⟨("polymarket", ⟨4, 1⟩), by decide +kernel, [],
      [("kalshi", ⟨5, 1⟩)], by decide +kernel, by simp, ?_⟩
  intro x hx _
  obtain rfl := List.mem_singleton.1 hx
  decide +kernel

end Wup.Executor
