/-
The HTTP API of the orderbook service on the wire (`orderbook.rs`,
`store.rs`, `api.rs`), and what the gateway asks of it and reads
(`protocol.rs`, `router.rs`).

A map is an object with its entries as members. The gateway knows fewer
fields of an orderbook than are written; of an answer that is not a
success it reads nothing. A handler that panics answers nothing, and the
gateway gets an error.

The gateway pastes the ids into a URL as they are. What the server takes
that URL's path and query to be is up to the HTTP layers of both sides,
which are a parameter (`HttpLayer`): they escape and decode, and cut the
path at its slashes and the query off it.
-/
import Wup.Gateway.Protocol
import Wup.Orderbook.Api
import Wup.Wire.Schema

namespace Wup

open Json
open ExternalServices (optionValue readOption readString readVec
  structFields)

-- ================================================================= writing

/-- A map of texts. -/
def mapValue (m : HashMap String String) : Value :=
  .obj (.ofMembers (m.entries.map fun e => (e.1, .str e.2)))

/-- A map that is not written when it is empty. -/
def mapField (m : HashMap String String) : Option Value :=
  if m.entries = [] then none else some (mapValue m)

def natValue (n : Nat) : Value := .num (.int n)

def MarketInfo.toValue (m : MarketInfo) : Value :=
  .ofFields
    [("market_id", some (.str m.marketId)),
     ("questions", mapField m.questions),
     ("slugs", mapField m.slugs)]

def OrderbookResponse.toValue (r : OrderbookResponse) : Value :=
  .obj (.ofMembers
    [("market", r.market.toValue),
     ("asset_id", .str r.assetId),
     ("market_id", .str r.marketId),
     ("platforms", vecValue .str r.platforms),
     ("bids", vecValue AggregatedPriceLevel.toValue r.bids),
     ("asks", vecValue AggregatedPriceLevel.toValue r.asks),
     ("exchange_best_bid", mapValue r.exchangeBestBid),
     ("exchange_best_ask", mapValue r.exchangeBestAsk),
     ("system_best_bid", optionValue .str r.systemBestBid),
     ("system_best_ask", optionValue .str r.systemBestAsk),
     ("mid_price", optionValue .str r.midPrice),
     ("spread", optionValue .str r.spread),
     ("bid_depth", .str r.bidDepth),
     ("ask_depth", .str r.askDepth),
     ("bid_levels", natValue r.bidLevels),
     ("ask_levels", natValue r.askLevels),
     ("last_exchange_timestamp", .str r.lastExchangeTimestamp),
     ("last_received_at", .num (.int r.lastReceivedAt)),
     ("update_count", natValue r.updateCount.toNat)])

def MarketOrderbooksResponse.toValue (r : MarketOrderbooksResponse) :
    Value :=
  .obj (.ofMembers
    [("market_id", .str r.marketId),
     ("questions", mapValue r.questions),
     ("slugs", mapValue r.slugs),
     ("asset_count", natValue r.assetCount),
     ("assets", vecValue OrderbookResponse.toValue r.assets)])

def BboResponse.toValue (r : BboResponse) : Value :=
  .obj (.ofMembers
    [("asset_id", .str r.assetId),
     ("market_id", .str r.marketId),
     ("market", r.market.toValue),
     ("exchange_best_bid", mapValue r.exchangeBestBid),
     ("exchange_best_ask", mapValue r.exchangeBestAsk),
     ("system_best_bid", optionValue .str r.systemBestBid),
     ("system_best_ask", optionValue .str r.systemBestAsk),
     ("mid_price", optionValue .str r.midPrice),
     ("spread", optionValue .str r.spread),
     ("last_received_at", .num (.int r.lastReceivedAt))])

def MarketBbosResponse.toValue (r : MarketBbosResponse) : Value :=
  .obj (.ofMembers
    [("market_id", .str r.marketId),
     ("questions", mapValue r.questions),
     ("slugs", mapValue r.slugs),
     ("asset_count", natValue r.assetCount),
     ("bbos", vecValue BboResponse.toValue r.bbos)])

def TokenSummary.toValue (s : TokenSummary) : Value :=
  .obj (.ofMembers
    [("asset_id", .str s.assetId),
     ("platforms", vecValue .str s.platforms),
     ("system_best_bid", optionValue .str s.systemBestBid),
     ("system_best_ask", optionValue .str s.systemBestAsk),
     ("bid_levels", natValue s.bidLevels),
     ("ask_levels", natValue s.askLevels),
     ("update_count", natValue s.updateCount.toNat)])

def MarketSummary.toValue (s : MarketSummary) : Value :=
  .obj (.ofMembers
    [("market_id", .str s.marketId),
     ("questions", mapValue s.questions),
     ("slugs", mapValue s.slugs),
     ("asset_count", natValue s.assetCount),
     ("assets", vecValue TokenSummary.toValue s.assets)])

def AllOrderbooksResponse.toValue (r : AllOrderbooksResponse) : Value :=
  .obj (.ofMembers
    [("market_count", natValue r.marketCount),
     ("total_assets", natValue r.totalAssets),
     ("total_snapshots", natValue r.totalSnapshots.toNat),
     ("total_deltas", natValue r.totalDeltas.toNat),
     ("markets", vecValue MarketSummary.toValue r.markets)])

def StoreStats.toValue (s : StoreStats) : Value :=
  .obj (.ofMembers
    [("market_count", natValue s.marketCount),
     ("total_assets", natValue s.totalAssets),
     ("total_snapshots", natValue s.totalSnapshots.toNat),
     ("total_deltas", natValue s.totalDeltas.toNat)])

-- ================================================================= answers

/-- An HTTP answer. -/
structure HttpAnswer where
  status : Nat
  body : String
deriving DecidableEq, Repr

/-- `is_success`. -/
def HttpAnswer.isSuccess (answer : HttpAnswer) : Bool :=
  200 ≤ answer.status && answer.status < 300

/-- `into_response`: the response as JSON, or the error with its
status. -/
def intoResponse (J : SerdeJson) {α : Type} (toValue : α → Value) :
    Except OrderbookApi.ApiError α → HttpAnswer
  | .ok response => ⟨200, J.toString (toValue response)⟩
  | .error e =>
      ⟨e.status, J.toString (.obj (.ofMembers [("error", .str e.message)]))⟩

-- ================================================================ requests

/-- What the server routes by: the segments of the path, decoded, and the
`depth` of the query. -/
structure HttpRequest where
  segments : List String
  depth : Option Nat
deriving DecidableEq, Repr

/-- What is between a URL and the routes: for what follows the service's
address, the request the server makes of it, unless it is refused. -/
structure HttpLayer where
  request : String → Option HttpRequest

/-- A path of segments. -/
def pathOf (segments : List String) : String :=
  segments.foldr (fun segment path => "/" ++ segment ++ path) ""

/-- A segment that no layer changes: some of the characters that a URL
reserves for nothing, other than one dot or two. -/
def PlainSegment (segment : String) : Prop :=
  segment ≠ "" ∧ segment ≠ "." ∧ segment ≠ ".."
    ∧ segment.toList.all (fun c =>
        c.isAlphanum || ['-', '.', '_', '~'].contains c) = true

instance : DecidablePred PlainSegment :=
  fun _ => inferInstanceAs (Decidable (_ ∧ _))

/-- The layers as documented: plain segments arrive as they were sent. -/
structure HttpLayer.Lawful (H : HttpLayer) : Prop where
  plain : ∀ segments : List String, (∀ s ∈ segments, PlainSegment s) →
    H.request (pathOf segments) = some ⟨segments, none⟩

/-- `create_router`: the answer of the route a request takes. A parameter
of a route stands for a segment that is not empty. -/
def serve (D : RustDecimal) (J : SerdeJson) (store : OrderbookStore)
    (request : HttpRequest) : OrPanic HttpAnswer :=
  if "" ∈ request.segments then return ⟨404, ""⟩
  else match request.segments with
    | ["health"] =>
        return ⟨200, J.toString (.obj (.ofMembers [("status", .str "ok")]))⟩
    | ["stats"] =>
        return ⟨200, J.toString (OrderbookApi.statsHandler store).toValue⟩
    | ["orderbooks"] =>
        return ⟨200,
          J.toString (OrderbookApi.listAllHandler D store).toValue⟩
    | ["orderbook", marketId] =>
        intoResponse J MarketOrderbooksResponse.toValue
          <$> OrderbookApi.getMarketHandler D store marketId request.depth
    | ["orderbook", marketId, assetId] =>
        intoResponse J OrderbookResponse.toValue
          <$> OrderbookApi.getOrderbookHandler D store marketId assetId
            request.depth
    | ["bbo", marketId] =>
        intoResponse J MarketBbosResponse.toValue
          <$> OrderbookApi.getMarketBbosHandler D store marketId
    | ["bbo", marketId, assetId] =>
        intoResponse J BboResponse.toValue
          <$> OrderbookApi.getBboHandler D store marketId assetId
    | _ => return ⟨404, ""⟩

-- ================================================================= reading

namespace Gateway

/-- `HttpAggregatedPriceLevel`. -/
def readHttpLevel (v : Value) : Option AggregatedPriceLevel := do
  let field ← structFields ["price", "total_size", "platforms"] v
  let price ← (field "price").bind readString
  let totalSize ← (field "total_size").bind readString
  let platforms ← (field "platforms").bind (readVec PlatformEntry.ofValue)
  return ⟨price, totalSize, platforms⟩

def OrderbookHttpResponse.ofValue (v : Value) :
    Option OrderbookHttpResponse := do
  let field ← structFields
    ["asset_id", "market_id", "platforms", "bids", "asks",
      "system_best_bid", "system_best_ask"] v
  let assetId ← (field "asset_id").bind readString
  let marketId ← (field "market_id").bind readString
  let platforms ← (field "platforms").bind (readVec readString)
  let bids ← (field "bids").bind (readVec readHttpLevel)
  let asks ← (field "asks").bind (readVec readHttpLevel)
  let systemBestBid ← readOption readString (field "system_best_bid")
  let systemBestAsk ← readOption readString (field "system_best_ask")
  return ⟨assetId, marketId, platforms, bids, asks, systemBestBid,
    systemBestAsk⟩

def MarketOrderbooksHttpResponse.ofValue (v : Value) :
    Option MarketOrderbooksHttpResponse := do
  let field ← structFields ["market_id", "asset_count", "assets"] v
  let marketId ← (field "market_id").bind readString
  let assetCount ← (field "asset_count").bind
    (ExternalServices.readInt 0 (2 ^ 64))
  let assets ← (field "assets").bind (readVec OrderbookHttpResponse.ofValue)
  return ⟨marketId, assetCount.toNat, assets⟩

/-- What a request gets: an error where the body cannot be read, and
nothing where the answer is not a success. -/
def readAnswer (J : SerdeJson) {α : Type} (ofValue : Value → Option α)
    (answer : HttpAnswer) : Option (Option α) :=
  if answer.isSuccess then
    ((J.fromStr answer.body).bind ofValue).map some
  else some none

/-- `get(url)`: the answer of the service to what its layers make of a
path, or a refusal; an error where nothing is answered. -/
def httpGet (H : HttpLayer) (D : RustDecimal) (J : SerdeJson)
    (store : OrderbookStore) (path : String) : Option HttpAnswer :=
  match H.request path with
  | none => some ⟨400, ""⟩
  | some request => (serve D J store request).toOption

/-- The request for a snapshot, answered by the service. -/
def fetchOrderbook (H : HttpLayer) (D : RustDecimal) (J : SerdeJson)
    (store : OrderbookStore) (marketId assetId : String) :
    Option (Option OrderbookHttpResponse) :=
  (httpGet H D J store ("/orderbook/" ++ marketId ++ "/" ++ assetId)).bind
    (readAnswer J OrderbookHttpResponse.ofValue)

/-- The request for the snapshots of a market. -/
def fetchMarket (H : HttpLayer) (D : RustDecimal) (J : SerdeJson)
    (store : OrderbookStore) (marketId : String) :
    Option (Option MarketOrderbooksHttpResponse) :=
  (httpGet H D J store ("/orderbook/" ++ marketId)).bind
    (readAnswer J MarketOrderbooksHttpResponse.ofValue)

end Gateway

end Wup
