/-
The spending cap of the order routes.

What an order spends is read off the order the client builds from it: its
amount for a market order, price times size for a limit order. The guard
reads the `amount` field alone, whatever the order type, and stands on one
of the two routes. So a purchase beyond the cap is refused exactly when it
is posted to `/order` with an `amount` beyond the cap (`capped_iff`):
every market order there, and a limit order only if it carries an amount
it has no use for.

No other reply carries the guard's code (`code_ofSubmission`), so a
purchase the guard misses is not refused under it for another reason.
-/
import Wup.Executor.Api
import Wup.Executor.PolymarketClient

namespace Wup.Executor

-- =============================================================== the spend

/-- What a purchase spends, in USDC. -/
def SdkOrderRequest.spend : SdkOrderRequest → ℚ
  | .market _ .buy amount => amount.val
  | .limit _ .buy size price _ => price.val * size.val
  | .market _ .sell _ => 0
  | .limit _ .sell _ _ _ => 0

/-- The request is a purchase for more than 5 USDC. -/
def OrderRequest.Overspends (req : OrderRequest) : Prop :=
  ∃ order, SdkOrderRequest.ofRequest req = .ok order ∧ 5 < order.spend

/-- An amount in the request that the guard refuses for a buy. -/
def OrderRequest.AmountOverCap (req : OrderRequest) : Prop :=
  5 < (req.amount.getD .zero).val

/-- Other than a market order, a request needs a price and a size. -/
theorem ofRequest_limit {req : OrderRequest} (ht : req.orderType ≠ .market)
    {price size : Decimal} (hp : req.price = some price)
    (hs : req.size = some size) :
    SdkOrderRequest.ofRequest req
      = .ok (.limit req.tokenId req.side size price req.orderType) := by
  unfold SdkOrderRequest.ofRequest
  cases hc : req.orderType with
  | market => exact absurd hc ht
  | _ => simp only [hp, hs]

theorem ofRequest_incomplete {req : OrderRequest}
    (ht : req.orderType ≠ .market)
    (h : req.price = none ∨ req.size = none) (order : SdkOrderRequest) :
    SdkOrderRequest.ofRequest req ≠ .ok order := by
  unfold SdkOrderRequest.ofRequest
  cases hc : req.orderType with
  | market => exact absurd hc ht
  | _ =>
      cases hp : req.price with
      | none => nofun
      | some price =>
          rw [hp] at h
          simp [h.resolve_left nofun]

/-- A purchase beyond the cap, by order type. -/
theorem overspends_iff (req : OrderRequest) :
    req.Overspends ↔ req.side = .buy
      ∧ ((req.orderType = .market
          ∧ ∃ amount, req.amount = some amount ∧ 5 < amount.val)
        ∨ req.orderType ≠ .market
          ∧ ∃ price size, req.price = some price ∧ req.size = some size
            ∧ 5 < price.val * size.val) := by
  have hmarket : ∀ amount : Decimal,
      5 < (SdkOrderRequest.market req.tokenId req.side amount).spend
        ↔ req.side = .buy ∧ 5 < amount.val := by
    intro amount
    cases req.side with
    | buy => simp [SdkOrderRequest.spend]
    | sell => simp [SdkOrderRequest.spend]
  have hlimit : ∀ size price : Decimal,
      5 < (SdkOrderRequest.limit req.tokenId req.side size price
          req.orderType).spend
        ↔ req.side = .buy ∧ 5 < price.val * size.val := by
    intro size price
    cases req.side with
    | buy => simp [SdkOrderRequest.spend]
    | sell => simp [SdkOrderRequest.spend]
  by_cases ht : req.orderType = .market
  · cases ha : req.amount with
    | none =>
        simp [OrderRequest.Overspends, SdkOrderRequest.ofRequest, ht, ha]
    | some amount =>
        simp [OrderRequest.Overspends, SdkOrderRequest.ofRequest, ht, ha,
          hmarket]
  · unfold OrderRequest.Overspends
    cases hp : req.price with
    | none => simp [ofRequest_incomplete ht (.inl hp), ht]
    | some price =>
        cases hs : req.size with
        | none => simp [ofRequest_incomplete ht (.inr hs), ht]
        | some size => simp [ofRequest_limit ht hp hs, ht, hlimit]

-- ================================================================= the cap

/-- The reply refuses the order over its amount, and no executor has seen
it. -/
def Reply.RefusesAmount (reply : Reply) : Prop :=
  reply.status = .badRequest
    ∧ (∃ text, reply.body = .error ⟨text, "INVALID_AMOUNT"⟩)
    ∧ reply.calls = []

/-- A purchase beyond the cap is refused on the route. -/
def Capped (state : AppState) (route : OrderRoute) (req : OrderRequest) :
    Prop :=
  req.Overspends → (state.post req route).RefusesAmount

theorem code_ofSubmission (submission : Submission) :
    ¬ (Reply.ofSubmission submission).RefusesAmount := by
  unfold Reply.ofSubmission
  rintro ⟨-, ⟨text, hbody⟩, -⟩
  split at hbody
  · cases hbody
  · injection hbody with herror
    injection herror with htext hcode
    exact absurd hcode (by decide)

/-- The guard refuses exactly the buys with an amount beyond the cap. -/
theorem smartOrderHandler_refuses_iff (state : AppState)
    (req : OrderRequest) :
    (smartOrderHandler state req).RefusesAmount
      ↔ req.side = .buy ∧ req.AmountOverCap := by
  unfold smartOrderHandler
  split
  · next h => exact iff_of_true ⟨rfl, ⟨_, rfl⟩, rfl⟩ h
  · next h => exact iff_of_false (code_ofSubmission _) h

/-- For every request, route and state of the router: a purchase beyond
the cap is refused exactly when it is posted to `/order` with an amount
beyond the cap. -/
theorem capped_iff (state : AppState) (route : OrderRoute)
    (req : OrderRequest) :
    Capped state route req
      ↔ (req.Overspends → route = .order ∧ req.AmountOverCap) := by
  refine forall_congr' fun hover => ?_
  cases route with
  | order =>
      have hbuy := ((overspends_iff req).1 hover).1
      rw [AppState.post, smartOrderHandler_refuses_iff]
      simp [hbuy]
  | orderPlatform platform =>
      exact iff_of_false (code_ofSubmission _) fun h => by cases h.1

/-- Ten USDC through the platform's own route, and fifty as a limit order
through the guarded one: both reach the executor. -/
theorem purchases_pass_the_cap :
    let client : PolymarketSdkClient := ⟨fun _ => .ok ("id", .live)⟩
    let state : AppState :=
      ⟨(SmartRouter.new .new).register ((⟨client, false⟩ :
        PolymarketExecutor).executor 0)⟩
    let market : OrderRequest :=
      { marketId := "m", tokenId := "a", side := .buy
        orderType := .default, platform := none
        price := none, size := none, amount := some ⟨10, 0⟩
        expiration := none, postOnly := none, tickSize := none }
    let limit : OrderRequest :=
      { marketId := "m", tokenId := "a", side := .buy
        orderType := .GTC, platform := some "polymarket"
        price := some ⟨5, 1⟩, size := some ⟨100, 0⟩, amount := none
        expiration := none, postOnly := none, tickSize := none }
    ¬ Capped state (.orderPlatform "polymarket") market
      ∧ ((state.post market (.orderPlatform "polymarket")).calls.map
          (·.1)) = ["polymarket"]
      ∧ ¬ Capped state .order limit
      ∧ (state.post limit .order).calls = [("polymarket", limit)] := by
  intro client state market limit
  have hmarket : market.Overspends :=
    ⟨.market "a" .buy ⟨10, 0⟩, rfl, by decide +kernel⟩
  have hlimit : limit.Overspends :=
    ⟨.limit "a" .buy ⟨100, 0⟩ ⟨5, 1⟩ .GTC, rfl, by decide +kernel⟩
  have hsent : (state.post market
      (.orderPlatform "polymarket")).calls.map (·.1) = ["polymarket"] := by
    decide +kernel
  have hsent' : (state.post limit .order).calls
      = [("polymarket", limit)] := by decide +kernel
  refine ⟨fun h => ?_, hsent, fun h => ?_, hsent'⟩
  · rw [(h hmarket).2.2] at hsent
    cases hsent
  · rw [(h hlimit).2.2] at hsent'
    cases hsent'

end Wup.Executor
