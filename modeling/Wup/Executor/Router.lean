/-
The smart order router (`router.rs`, `types.rs`, `traits.rs`, `error.rs`).

An executor is code the router is handed: its platform name and its answer
to an order. The answer is any function of the request, the orders handed
to executors are recorded beside the result.

The platform errors an executor wraps and the serialisation and parse
errors of its libraries stand as their texts. Log lines are not modelled.
-/
import Wup.Executor.BboCache

namespace Wup

namespace Executor

-- ============================================================== the orders

/-- Order type (time in force). -/
inductive OrderType
  | GTC
  | GTD
  | FOK
  | market
deriving DecidableEq, Repr

/-- Market is the order type of a request that names none. -/
def OrderType.default : OrderType := .market

/-- Order status (platform-agnostic). -/
inductive OrderStatus
  | pending
  | opened
  | filled
  | partiallyFilled
  | cancelled
  | rejected
  | matched
  | unknown
deriving DecidableEq, Repr

/-- Unified order request, for limit and market orders. -/
structure OrderRequest where
  marketId : String
  tokenId : String
  side : OrderSide
  orderType : OrderType
  /-- Target platform, `none` for smart routing. -/
  platform : Option String
  price : Option Decimal
  size : Option Decimal
  amount : Option Decimal
  expiration : Option UInt64
  postOnly : Option Bool
  tickSize : Option String
deriving DecidableEq

/-- Order response (platform-agnostic). -/
structure OrderResponse where
  orderId : String
  platform : String
  status : OrderStatus
  filledSize : Option Decimal
  remainingSize : Option Decimal
  /-- Price at time of routing. -/
  routedPrice : Option Decimal
deriving DecidableEq

/-- Executor errors. -/
inductive Error
  | missingEnv (name : String)
  | unknownPlatform (platform : String)
  | noAvailablePlatform
  | platform (text : String)
  | json (text : String)
  | nats (text : String)
  | decimalParse (text : String)
  | orderFailed (text : String)
deriving DecidableEq, Repr

/-- The text of an error. -/
def Error.text : Error → String
  | .missingEnv name => "Missing environment variable: " ++ name
  | .unknownPlatform name => "Unknown platform: " ++ name
  | .noAvailablePlatform => "No available platform for order routing"
  | .platform text => "Platform error: " ++ text
  | .json text => "JSON error: " ++ text
  | .nats text => "NATS error: " ++ text
  | .decimalParse text => "Decimal parse error: " ++ text
  | .orderFailed text => "Order submission failed: " ++ text

end Executor

-- ============================================================== the router

/-- Platform-specific order execution. -/
structure Executor where
  platformName : String
  submitOrder :
    Executor.OrderRequest → Except Executor.Error Executor.OrderResponse

namespace Executor

/-- Smart order router over the local BBO cache. -/
structure SmartRouter where
  /-- Executors by platform name. -/
  executors : HashMap String Executor
  bboCache : BboCache

/-- A submission: the answer, and the orders handed to executors, each
under the platform of its executor. -/
structure Submission where
  result : Except Error OrderResponse
  calls : List (String × OrderRequest)

namespace SmartRouter

/-- A router with no executors. -/
def new (bboCache : BboCache) : SmartRouter := ⟨∅, bboCache⟩

/-- Register an executor for its platform. -/
def register (router : SmartRouter) (executor : Executor) : SmartRouter :=
  { router with
    executors := router.executors.insert executor.platformName executor }

/-- The executor of a platform. -/
def getExecutor (router : SmartRouter) (platform : String) :
    Option Executor :=
  router.executors.lookup platform

/-- Find the best platform from the local cache: the lowest ask for a buy,
the highest bid for a sell, if there is an executor for it. -/
def findBestPlatform (router : SmartRouter) (marketId assetId : String)
    (side : OrderSide) : Option (String × Decimal) :=
  let result := match side with
    | .buy => router.bboCache.bestAsk marketId assetId
    | .sell => router.bboCache.bestBid marketId assetId
  result.filter fun best => (router.executors.lookup best.1).isSome

/-- Submit an order: to the platform it names, or to the best one. -/
def submitOrder (router : SmartRouter) (req : OrderRequest) : Submission :=
  match req.platform with
  | some platform =>
      match router.getExecutor platform with
      | none => ⟨.error (.unknownPlatform platform), []⟩
      | some executor => ⟨executor.submitOrder req, [(platform, req)]⟩
  | none =>
      match router.findBestPlatform req.marketId req.tokenId req.side with
      | none => ⟨.error .noAvailablePlatform, []⟩
      | some (bestPlatform, bestPrice) =>
          match router.getExecutor bestPlatform with
          | none => ⟨.error (.unknownPlatform bestPlatform), []⟩
          | some executor =>
              let req := { req with platform := some bestPlatform }
              ⟨(executor.submitOrder req).map fun response =>
                  { response with routedPrice := some bestPrice },
                [(bestPlatform, req)]⟩

end SmartRouter

end Executor

end Wup
