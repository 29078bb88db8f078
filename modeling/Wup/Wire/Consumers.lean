/-
How the services read the payloads they take off NATS: the orderbook
service normalized messages (`service.rs`), the executor's cache and the
gateway's router published events (`bbo_cache.rs`, `router.rs`).

The two consumers of events have their own views of one. The cache reads a
side as any string and drops the total size and the time, but refuses a
payload without a total size. The router reads the two ids alone first
(`extractIdsFast`), and the rest only when somebody is subscribed; where
that fails it reads the whole event for its ids.

A payload that is refused is logged and left.

A payload is read as one JSON value first and the record is taken out of
it. serde takes the fields straight off the text and skips the others
without keeping them, so of foreign payloads it accepts some that these
readers refuse: a number out of range under a name that is not read. What
the services publish is a printed value, for which the two agree.
-/
import Wup.Executor.BboCache
import Wup.Gateway.Router
import Wup.Orderbook.Service
import Wup.Wire.Nats
import Wup.Wire.Schema

namespace Wup

open Json
open ExternalServices (structFields readString readVec)

-- =================================================== the orderbook service

/-- `process_message`, from the payload on: the store afterwards, and what
is published. -/
def OrderbookService.processPayload (D : RustDecimal) (J : SerdeJson)
    (service : OrderbookService) (store : OrderbookStore)
    (payload : String) (now : Int) : OrderbookStore × Option Publication :=
  match NormalizedOrderbook.fromStr J payload with
  | some msg =>
      let r := service.processMessage D store msg now
      (r.1, r.2.map fun e => ⟨e.1, e.2.toString J⟩)
  | none => (store, none)

-- ============================================================ the executor

namespace Executor

def PlatformSize.ofValue (v : Value) : Option PlatformSize := do
  let field ← structFields ["platform", "size"] v
  let platform ← (field "platform").bind readString
  let size ← (field "size").bind readString
  return ⟨platform, size⟩

def PriceChange.ofValue (v : Value) : Option PriceChange := do
  let field ← structFields ["side", "price", "total_size", "platforms"] v
  let side ← (field "side").bind readString
  let price ← (field "price").bind readString
  let _ ← (field "total_size").bind readString
  let platforms ← (field "platforms").bind (readVec PlatformSize.ofValue)
  return ⟨side, price, platforms⟩

def OrderbookChange.ofValue (v : Value) : Option OrderbookChange := do
  let field ← structFields ["market_id", "asset_id", "changes"] v
  let marketId ← (field "market_id").bind readString
  let assetId ← (field "asset_id").bind readString
  let changes ← (field "changes").bind (readVec PriceChange.ofValue)
  return ⟨marketId, assetId, changes⟩

/-- `from_slice`. -/
def OrderbookChange.fromSlice (J : SerdeJson) (payload : String) :
    Option OrderbookChange :=
  (J.fromStr payload).bind OrderbookChange.ofValue

/-- `handle_change`, from the payload on. -/
def BboCache.handlePayload (D : RustDecimal) (J : SerdeJson)
    (cache : BboCache) (payload : String) : BboCache × Option Halt :=
  match OrderbookChange.fromSlice J payload with
  | some change => cache.handleChange D change
  | none => (cache, none)

end Executor

-- ============================================================= the gateway

namespace Gateway

/-- `IdExtractor`: the market and the asset. -/
def IdExtractor.ofValue (v : Value) : Option (String × String) := do
  let field ← structFields ["market_id", "asset_id"] v
  let marketId ← (field "market_id").bind readString
  let assetId ← (field "asset_id").bind readString
  return (marketId, assetId)

/-- Extract market and asset without full deserialization. -/
def extractIdsFast (J : SerdeJson) (payload : String) :
    Option (String × String) :=
  (J.fromStr payload).bind IdExtractor.ofValue

/-- The ids an event is routed by: the fast way, else off the whole
event. -/
def payloadIds (J : SerdeJson) (payload : String) :
    Option (String × String) :=
  (extractIdsFast J payload).or
    ((AggregatedPriceChangeEvent.fromSlice J payload).map fun change =>
      (change.marketId, change.assetId))

/-- `handle_change`, from the payload on; `none` where it ends in an
error, with nothing sent. -/
def handlePayload (J : SerdeJson) (registry : ClientRegistry)
    (payload : String) : Option ClientRegistry :=
  (payloadIds J payload).bind fun ids =>
    let clients := registry.getMatchingSubscribers
      (buildSubject ids.1 ids.2)
    if clients = [] then some registry
    else
      (AggregatedPriceChangeEvent.fromSlice J payload).map fun change =>
        clients.foldl (fun registry client =>
          (registry.trySendRaw client.id
            (.text (.priceChange (.ofEvent change)))).1) registry

end Gateway

end Wup
