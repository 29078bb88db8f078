/-
The open orders of the Polymarket executor (`platforms/polymarket`).

An order passes through two records on its way out. The client copies the
exchange's order into an `OpenOrder`, with every quantity as text; the
conversion parses the quantities back and makes the platform-agnostic
`OrderResponse`. The exchange's order carries its original size and the
size matched so far. The `OpenOrder` has fields for the original size and
the size remaining, and the client writes the size matched into the
latter.

The exchange's client library is not in the repository: a page of orders,
or the text of an error, is what a request answers. Ids and the side are
the texts the library prints them as.
-/
import Wup.Executor.Router

namespace Wup.Executor

-- ================================================================= the SDK

/-- Order status of the exchange. -/
inductive OrderStatusType
  | live
  | matched
  | canceled
  | delayed
  | unknown
  /-- Any future variant. -/
  | other (name : String)
deriving DecidableEq, Repr

/-- An order as the exchange's library returns it. -/
structure SdkOrder where
  id : String
  market : String
  assetId : String
  side : String
  price : Decimal
  originalSize : Decimal
  sizeMatched : Decimal
  status : OrderStatusType
deriving DecidableEq, Repr

/-- `From<OrderStatusType>`. -/
def OrderStatusType.toOrderStatus : OrderStatusType → OrderStatus
  | .live => .opened
  | .matched => .matched
  | .canceled => .cancelled
  | .delayed => .pending
  | .unknown => .unknown
  | .other _ => .unknown

/-- The error of a failed request. -/
structure ApiError where
  status : Nat
  message : String
deriving DecidableEq, Repr

/-- The text of the error. -/
def ApiError.text (e : ApiError) : String :=
  "API error: " ++ toString e.status ++ " - " ++ e.message

-- ============================================================= the records

/-- Open order. -/
structure OpenOrder where
  orderId : String
  orderHash : String
  conditionId : String
  tokenId : String
  side : String
  price : String
  originalSize : String
  sizeRemaining : String
  orderType : String
  status : OrderStatusType
  createdAt : String
deriving DecidableEq, Repr

variable (D : RustDecimal)

/-- The record of an exchange order, as `get_open_orders` and `get_order`
fill it in. -/
def openOrderOf (o : SdkOrder) : OpenOrder where
  orderId := o.id
  orderHash := ""
  conditionId := o.market
  tokenId := o.assetId
  side := o.side
  price := D.toString o.price
  originalSize := D.toString o.originalSize
  -- the size matched, not what is left of the original size
  sizeRemaining := D.toString o.sizeMatched
  orderType := ""
  status := o.status
  createdAt := ""

/-- Get open orders. -/
def PolymarketSdkClient.getOpenOrders
    (page : Except String (List SdkOrder)) :
    Except ApiError (List OpenOrder) :=
  match page with
  | .error text => .error ⟨0, text⟩
  | .ok data => .ok (data.map (openOrderOf D))

/-- `From<OpenOrder>`. -/
def OpenOrder.toOrderResponse (order : OpenOrder) : OrderResponse :=
  let remaining := D.fromStr order.sizeRemaining
  let original := D.fromStr order.originalSize
  let filled := match original, remaining with
    | some o, some r => some (D.sub o r)
    | _, _ => none
  { orderId := order.orderId
    platform := "polymarket"
    status := order.status.toOrderStatus
    filledSize := filled
    remainingSize := remaining
    routedPrice := none }

/-- The open orders the executor answers with. -/
def PolymarketExecutor.getOpenOrders
    (page : Except String (List SdkOrder)) :
    Except Error (List OrderResponse) :=
  match PolymarketSdkClient.getOpenOrders D page with
  | .error e => .error (.platform e.text)
  | .ok orders => .ok (orders.map (OpenOrder.toOrderResponse D))

end Wup.Executor
