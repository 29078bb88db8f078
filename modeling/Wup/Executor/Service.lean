/-
The executor as a running service: its HTTP routes (`api.rs`) over the
router, the Polymarket executor and its client, with the cache's
subscription beside them (`main.rs`).

Requests are served at once. A handler runs until it waits for the
exchange's library: to build an order, to sign it, to post it; to cancel
one; or for a page of open orders. While it waits others move, and events
reach the cache. Where a client disconnects its handler goes no further.

An event holds the cache's entry from beginning to end, so a handler sees
the cache between two events. Where the subscription's task blocks itself
it holds the entry for good, and whoever looks up a key in the same shard
of the map waits as long (`shard`).

The library answers anything at any time. What it is asked to send to the
exchange is recorded, under the number of the request it is for. Of the
executors, `main` registers Polymarket's. `health` is left out.
-/
import Wup.Executor.Api
import Wup.Executor.PolymarketClient

namespace Wup.Executor

variable (D : RustDecimal)

-- ============================================================ the requests

/-- A request, with what its path and its body say. -/
inductive ApiRequest
  | order (route : OrderRoute) (req : OrderRequest)
  /-- `DELETE /order/{platform}/{order_id}` -/
  | cancel (platform orderId : String)
  /-- `GET /orders/{platform}` -/
  | listOrders (platform : String)
deriving DecidableEq

inductive ApiBody
  | order (response : OrderResponse)
  | cancelled (orderId : String)
  | orders (responses : List OrderResponse)
  | error (response : ErrorResponse)
deriving DecidableEq

structure ApiReply where
  status : StatusCode
  body : ApiBody
deriving DecidableEq

/-- The error reply of a route. -/
def ApiReply.failed (e : Error) (code : String) : ApiReply :=
  ⟨.badRequest, .error ⟨e.text, code⟩⟩

/-- The reply to an order: the `match` both order handlers end in. -/
def ApiReply.ordered : Except Error OrderResponse → ApiReply
  | .ok response => ⟨.ok, .order response⟩
  | .error e => .failed e "ORDER_FAILED"

/-- The reply to a cancellation. -/
def ApiReply.cancelled (orderId : String) : Except Error Unit → ApiReply
  | .ok _ => ⟨.ok, .cancelled orderId⟩
  | .error e => .failed e "CANCEL_FAILED"

/-- The reply with the open orders. -/
def ApiReply.listed : Except Error (List OrderResponse) → ApiReply
  | .ok responses => ⟨.ok, .orders responses⟩
  | .error e => .failed e "LIST_FAILED"

/-- What the executor makes of the library's answer to a cancellation. -/
def PolymarketExecutor.cancelOrder (result : Except String Unit) :
    Except Error Unit :=
  result.mapError fun text => .platform (ApiError.mk 0 text).text

/-- What the library is asked to send. -/
inductive ExchangeCall
  | postOrder (order : SdkOrderRequest)
  | cancelOrder (orderId : String)
  /-- A page of open orders. -/
  | orders
deriving DecidableEq

/-- What the library answers; an error is its text. -/
inductive LibraryAnswer
  | built (result : Except String Unit)
  | signed (result : Except String Unit)
  | posted (result : Except String (String × OrderStatusType))
  | cancelled (result : Except String Unit)
  | page (result : Except String (List SdkOrder))

/-- Where the handler of a request is. -/
inductive Stage
  | arrived
  /-- On its way through the library, with the price it was routed at. -/
  | building (order : SdkOrderRequest) (routedPrice : Option Decimal)
  | signing (order : SdkOrderRequest) (routedPrice : Option Decimal)
  | posting (order : SdkOrderRequest) (routedPrice : Option Decimal)
  | cancelling (orderId : String)
  | listing
  | answered (reply : ApiReply)
  /-- The client has disconnected. -/
  | dropped
deriving DecidableEq

-- ============================================================ the handlers

/-- The platforms with an executor. -/
def registered : List String := ["polymarket"]

/-- The search of smart routing. -/
def findBestPlatform (cache : BboCache) (req : OrderRequest) :
    Option (String × Decimal) :=
  let result := match req.side with
    | .buy => cache.bestAsk req.marketId req.tokenId
    | .sell => cache.bestBid req.marketId req.tokenId
  result.filter fun best => best.1 ∈ registered

/-- `submit_order` of the router, up to the call of the executor: the
order as the executor is handed it, and the price it was routed at. -/
def handOver (cache : BboCache) (req : OrderRequest) :
    Except Error (OrderRequest × Option Decimal) :=
  match req.platform with
  | some platform =>
      if platform ∈ registered then .ok (req, none)
      else .error (.unknownPlatform platform)
  | none =>
      match findBestPlatform cache req with
      | none => .error .noAvailablePlatform
      | some (bestPlatform, bestPrice) =>
          .ok ({ req with platform := some bestPlatform }, some bestPrice)

/-- The router's note of the price on an answer. -/
def noteRouted (routedPrice : Option Decimal) (response : OrderResponse) :
    OrderResponse :=
  match routedPrice with
  | some price => { response with routedPrice := some price }
  | none => response

/-- The client's answer to an order that was posted. -/
def orderResponse (order : SdkOrderRequest) (orderId : String)
    (status : OrderStatusType) : OrderResponse where
  orderId := orderId
  platform := "polymarket"
  status := status.toOrderStatus
  filledSize := none
  remainingSize := match order with
    | .market .. => none
    | .limit _ _ size _ _ => some size
  routedPrice := match order with
    | .market .. => none
    | .limit _ _ _ price _ => some price

/-- The guard of `POST /order`. -/
def OrderRequest.Refused (req : OrderRequest) (route : OrderRoute) : Prop :=
  route = .order ∧ req.side = .buy ∧ 5 < (req.amount.getD .zero).val

instance (req : OrderRequest) (route : OrderRoute) :
    Decidable (req.Refused route) :=
  inferInstanceAs (Decidable (_ ∧ _ ∧ _))

/-- The request as the handler of a route submits it. -/
def OrderRoute.submitted (req : OrderRequest) : OrderRoute → OrderRequest
  | .order => req
  | .orderPlatform platform => { req with platform := some platform }

/-- A handler up to the first time it waits: where it is then, and what
the library has been asked to send. -/
def ApiRequest.start (cache : BboCache) (dryRun : Bool) (now : Int) :
    ApiRequest → Stage × List ExchangeCall
  | .order route req =>
      if req.Refused route then
        (.answered ⟨.badRequest,
          .error ⟨"Amount must be less than 5", "INVALID_AMOUNT"⟩⟩, [])
      else
        match handOver cache (route.submitted req) with
        | .error e => (.answered (.ordered (.error e)), [])
        | .ok (req, routedPrice) =>
            if dryRun then
              (.answered (.ordered (.ok
                (noteRouted routedPrice (dryRunResponse req now)))), [])
            else
              match SdkOrderRequest.ofRequest req with
              | .error e =>
                  (.answered (.ordered (.error (.platform e.text))), [])
              | .ok sdkOrder => (.building sdkOrder routedPrice, [])
  | .cancel platform orderId =>
      if platform ∈ registered then
        (.cancelling orderId, [.cancelOrder orderId])
      else
        (.answered
          (.cancelled orderId (.error (.unknownPlatform platform))), [])
  | .listOrders platform =>
      if platform ∈ registered then (.listing, [.orders])
      else
        (.answered (.listed (.error (.unknownPlatform platform))), [])

/-- A handler goes on with an answer it waits for. -/
def Stage.hear : Stage → LibraryAnswer → Option (Stage × List ExchangeCall)
  | .building order routedPrice, .built result =>
      match result with
      | .error text => some (.answered (.ordered (.error
          (.platform (PlatformError.invalidOrder text).text))), [])
      | .ok _ => some (.signing order routedPrice, [])
  | .signing order routedPrice, .signed result =>
      match result with
      | .error text => some (.answered (.ordered (.error
          (.platform (PlatformError.signing text).text))), [])
      | .ok _ => some (.posting order routedPrice, [.postOrder order])
  | .posting order routedPrice, .posted result =>
      match result with
      | .error text => some (.answered (.ordered (.error
          (.platform (PlatformError.api ⟨0, text⟩).text))), [])
      | .ok (orderId, status) => some (.answered (.ordered (.ok
          (noteRouted routedPrice (orderResponse order orderId status)))),
          [])
  | .cancelling orderId, .cancelled result =>
      some (.answered
        (.cancelled orderId (PolymarketExecutor.cancelOrder result)), [])
  | .listing, .page page =>
      some (.answered
        (.listed (PolymarketExecutor.getOpenOrders D page)), [])
  | _, _ => none

-- =========================================================== one at a time

/-- What becomes of an order in the library's hands, over its three calls. -/
def outcome : List LibraryAnswer →
    Except PlatformError (String × OrderStatusType)
  | [.built (.error text)] => .error (.invalidOrder text)
  | [.built (.ok _), .signed (.error text)] => .error (.signing text)
  | [.built (.ok _), .signed (.ok _), .posted (.error text)] =>
      .error (.api ⟨0, text⟩)
  | [.built (.ok _), .signed (.ok _), .posted (.ok order)] => .ok order
  -- the library is not done, and there is no answer yet
  | _ => .error (.invalidOrder "")

/-- The state `main` builds, with a library that answers so. -/
def deployed (cache : BboCache) (dryRun : Bool) (now : Int)
    (answers : List LibraryAnswer) : AppState where
  router := (SmartRouter.new cache).register
    (PolymarketExecutor.executor ⟨⟨fun _ => outcome answers⟩, dryRun⟩ now)

/-- Cancel an order on a platform: `cancel_order`. -/
def SmartRouter.cancelOrder (router : SmartRouter) (platform : String)
    (result : Except String Unit) : Except Error Unit :=
  match router.getExecutor platform with
  | none => .error (.unknownPlatform platform)
  | some _ => PolymarketExecutor.cancelOrder result

/-- Open orders of a platform: `get_open_orders`. -/
def SmartRouter.getOpenOrders (router : SmartRouter) (platform : String)
    (page : Except String (List SdkOrder)) :
    Except Error (List OrderResponse) :=
  match router.getExecutor platform with
  | none => .error (.unknownPlatform platform)
  | some _ => PolymarketExecutor.getOpenOrders D page

/-- Cancel order handler: `DELETE /order/{platform}/{order_id}`. -/
def cancelOrderHandler (state : AppState) (result : Except String Unit)
    (platform orderId : String) : ApiReply :=
  .cancelled orderId (state.router.cancelOrder platform result)

/-- List open orders handler: `GET /orders/{platform}`. -/
def listOrdersHandler (state : AppState)
    (page : Except String (List SdkOrder)) (platform : String) : ApiReply :=
  .listed (state.router.getOpenOrders D platform page)

/-- The reply of an order route, without the note of who was called. -/
def ApiReply.ofReply (reply : Reply) : ApiReply where
  status := reply.status
  body := match reply.body with
    | .order response => .order response
    | .error response => .error response

/-- The reply to a request that is handled alone and at once, where the
library answers so. -/
def ApiRequest.handle (cache : BboCache) (dryRun : Bool) (now : Int)
    (answers : List LibraryAnswer) : ApiRequest → ApiReply
  | .order route req =>
      .ofReply ((deployed cache dryRun now answers).post req route)
  | .cancel platform orderId =>
      cancelOrderHandler (deployed cache dryRun now answers)
        (match answers with
          | [.cancelled result] => result
          | _ => .error "") platform orderId
  | .listOrders platform =>
      listOrdersHandler D (deployed cache dryRun now answers)
        (match answers with
          | [.page result] => result
          | _ => .error "") platform

-- ============================================================= the service

/-- The state of the service. -/
structure ExecutorService where
  cache : BboCache
  /-- The key whose entry the blocked task of the cache holds. -/
  blocked : Option (String × String)
  requests : List (ApiRequest × Stage)
  /-- What was sent to the exchange, by the number of the request. -/
  exchange : List (Nat × ExchangeCall)

inductive ExecutorAction
  /-- The cache receives an event. -/
  | change (change : OrderbookChange)
  | request (request : ApiRequest)
  /-- The handler of a request runs, at a time. -/
  | start (i : Nat) (now : Int)
  /-- The library answers a request. -/
  | answer (i : Nat) (answer : LibraryAnswer)
  | disconnect (i : Nat)

namespace ExecutorService

/-- At the start. -/
def start : ExecutorService := ⟨.new, none, [], []⟩

/-- A request is where it is now, and the library was asked this for it. -/
def set (s : ExecutorService) (i : Nat) (request : ApiRequest)
    (next : Stage × List ExchangeCall) : ExecutorService :=
  { s with
    requests := s.requests.set i (request, next.1)
    exchange := s.exchange ++ next.2.map fun call => (i, call) }

/-- The key a handler looks up in the cache. -/
def lookedUp : ApiRequest → Option (String × String)
  | .order route req =>
      if req.Refused route then none
      else if (route.submitted req).platform.isNone then
        some (req.marketId, req.tokenId)
      else none
  | _ => none

/-- The handler would wait for the blocked task. -/
def Waits (shard : String × String → Nat) (s : ExecutorService)
    (request : ApiRequest) : Prop :=
  ∃ held ∈ s.blocked, ∃ key ∈ lookedUp request, shard key = shard held

instance (shard : String × String → Nat) (s : ExecutorService)
    (request : ApiRequest) : Decidable (s.Waits shard request) :=
  match h : s.blocked, h' : lookedUp request with
  | some held, some key =>
      decidable_of_iff (shard key = shard held) (by simp [Waits, h, h'])
  | none, _ => isFalse (by simp [Waits, h])
  | some _, none => isFalse (by simp [Waits, h'])

variable (shard : String × String → Nat) (dryRun : Bool)

/-- Take a step; `none` where it cannot be taken now. -/
def step (s : ExecutorService) : ExecutorAction → Option ExecutorService
  | .change change =>
      match s.blocked with
      | some _ => none
      | none =>
          let r := s.cache.handleChange D change
          some { s with
            cache := r.1
            blocked := if r.2 = some .blocked then
                some (change.marketId, change.assetId)
              else none }
  | .request request =>
      some { s with requests := s.requests ++ [(request, .arrived)] }
  | .start i now =>
      match s.requests[i]? with
      | some (request, .arrived) =>
          if s.Waits shard request then none
          else some (s.set i request (request.start s.cache dryRun now))
      | _ => none
  | .answer i answer =>
      match s.requests[i]? with
      | some (request, stage) =>
          (stage.hear D answer).map (s.set i request)
      | none => none
  | .disconnect i =>
      match s.requests[i]? with
      | some (_, .answered _) => none
      | some (_, .dropped) => none
      | some (request, _) => some (s.set i request (.dropped, []))
      | none => none

/-- Take several steps from the start. -/
def run (actions : List ExecutorAction) : Option ExecutorService :=
  actions.foldlM (step D shard dryRun) start

end ExecutorService

end Wup.Executor
