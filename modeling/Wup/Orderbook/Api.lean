/-
The HTTP API of the orderbook service (`api.rs`): what each route answers
from the store.

A handler answers with a response or with an error that has a status and
a text, unless the arithmetic of the reader panics: then it answers
nothing. The paths and the query are taken as they were parsed; the
layers around the routes are not modelled.
-/
import Wup.Orderbook.OrPanic

namespace Wup.OrderbookApi

variable (D : RustDecimal)

/-- API error types. -/
inductive ApiError
  | notFound (message : String)
  | internalError (message : String)
deriving DecidableEq, Repr

/-- The status of an error. -/
def ApiError.status : ApiError → Nat
  | .notFound _ => 404
  | .internalError _ => 500

def ApiError.message : ApiError → String
  | .notFound message => message
  | .internalError message => message

/-- The response, or that it was not found. -/
def orNotFound {α : Type} (response : Option α) (message : String) :
    Except ApiError α :=
  match response with
  | some response => .ok response
  | none => .error (.notFound message)

/-- `GET /orderbook/{market_id}`. -/
def getMarketHandler (store : OrderbookStore) (marketId : String)
    (depth : Option Nat) :
    OrPanic (Except ApiError MarketOrderbooksResponse) := do
  let response ← OrPanic.getMarket D store marketId depth
  return orNotFound response ("Market '" ++ marketId ++ "' not found")

/-- `GET /orderbook/{market_id}/{asset_id}`. -/
def getOrderbookHandler (store : OrderbookStore)
    (marketId assetId : String) (depth : Option Nat) :
    OrPanic (Except ApiError OrderbookResponse) := do
  let response ← OrPanic.get D store marketId assetId depth
  return orNotFound response ("Orderbook for market '" ++ marketId
    ++ "', asset '" ++ assetId ++ "' not found")

/-- `GET /bbo/{market_id}`. -/
def getMarketBbosHandler (store : OrderbookStore) (marketId : String) :
    OrPanic (Except ApiError MarketBbosResponse) := do
  let response ← OrPanic.getMarketBbos D store marketId
  return orNotFound response ("Market '" ++ marketId ++ "' not found")

/-- `GET /bbo/{market_id}/{asset_id}`. -/
def getBboHandler (store : OrderbookStore) (marketId assetId : String) :
    OrPanic (Except ApiError BboResponse) := do
  let response ← OrPanic.getBbo D store marketId assetId
  return orNotFound response ("BBO for market '" ++ marketId
    ++ "', asset '" ++ assetId ++ "' not found")

/-- `GET /orderbooks`. -/
def listAllHandler (store : OrderbookStore) : AllOrderbooksResponse :=
  store.listAll D

/-- `GET /stats`. -/
def statsHandler (store : OrderbookStore) : StoreStats := store.stats

end Wup.OrderbookApi
