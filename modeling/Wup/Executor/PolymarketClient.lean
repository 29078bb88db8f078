/-
Order submission of the Polymarket executor (`platforms/polymarket`): the
client picks the fields an order of the requested type is made of and has
the exchange's library build, sign and post it. In dry-run mode the
executor answers by itself.

The library is not in the repository. What becomes of an order handed to
it, an id and a status or an error, is a parameter of the client.
-/
import Wup.Executor.OpenOrders

namespace Wup.Executor

/-- Errors of the platform client on the way of an order. -/
inductive PlatformError
  | invalidOrder (text : String)
  | signing (text : String)
  | api (e : ApiError)
deriving DecidableEq, Repr

def PlatformError.text : PlatformError → String
  | .invalidOrder text => "Invalid order parameters: " ++ text
  | .signing text => "Signing error: " ++ text
  | .api e => e.text

/-- An order as the library is asked to build it. -/
inductive SdkOrderRequest
  /-- Fill or kill, for an amount: of USDC to spend, or of shares to
  sell. -/
  | market (tokenId : String) (side : OrderSide) (amount : Decimal)
  | limit (tokenId : String) (side : OrderSide) (size price : Decimal)
      (orderType : OrderType)
deriving DecidableEq

/-- The order a request asks for. -/
def SdkOrderRequest.ofRequest (req : OrderRequest) :
    Except PlatformError SdkOrderRequest :=
  match req.orderType with
  | .market =>
      match req.amount with
      | none => .error (.invalidOrder "Market orders require 'amount'")
      | some amount => .ok (.market req.tokenId req.side amount)
  | orderType =>
      match req.price with
      | none => .error (.invalidOrder "Limit orders require 'price'")
      | some price =>
          match req.size with
          | none => .error (.invalidOrder "Limit orders require 'size'")
          | some size =>
              .ok (.limit req.tokenId req.side size price orderType)

/-- Client over the exchange's library. -/
structure PolymarketSdkClient where
  library :
    SdkOrderRequest → Except PlatformError (String × OrderStatusType)

/-- Submit an order (limit or market). -/
def PolymarketSdkClient.submitOrder (client : PolymarketSdkClient)
    (req : OrderRequest) : Except PlatformError OrderResponse :=
  match SdkOrderRequest.ofRequest req with
  | .error e => .error e
  | .ok order =>
      match client.library order with
      | .error e => .error e
      | .ok (orderId, status) => .ok
          { orderId := orderId
            platform := "polymarket"
            status := status.toOrderStatus
            filledSize := none
            remainingSize := match order with
              | .market .. => none
              | .limit _ _ size _ _ => some size
            routedPrice := match order with
              | .market .. => none
              | .limit _ _ _ price _ => some price }

/-- Polymarket executor. -/
structure PolymarketExecutor where
  client : PolymarketSdkClient
  dryRun : Bool

/-- The answer to an order in dry-run mode. -/
def dryRunResponse (req : OrderRequest) (now : Int) : OrderResponse :=
  match req.orderType with
  | .market =>
      { orderId := "dry-run-market-" ++ toString now
        platform := "polymarket"
        status := .pending
        filledSize := none
        remainingSize := none
        routedPrice := none }
  | _ =>
      { orderId := "dry-run-" ++ toString now
        platform := "polymarket"
        status := .pending
        filledSize := none
        remainingSize := req.size
        routedPrice := req.price }

/-- The executor as the router holds it, at a time in milliseconds. -/
def PolymarketExecutor.executor (self : PolymarketExecutor) (now : Int) :
    Executor where
  platformName := "polymarket"
  submitOrder req :=
    if self.dryRun then .ok (dryRunResponse req now)
    else
      match self.client.submitOrder req with
      | .error e => .error (.platform e.text)
      | .ok response => .ok response

end Wup.Executor
