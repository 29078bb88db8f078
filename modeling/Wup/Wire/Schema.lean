/-
The messages of the schema as JSON text (`schema.rs`).

A record is written and read as `serde` derives it, with the readers of
the stored records; an option that is `None` is not written. Each
enumeration has its own spelling: message types are lowercase, the sides
of an exchange update uppercase, the sides of a published change
lowercase.

What a field that nobody reads holds is read as a value like the others.
-/
import Wup.ExternalServices.Types
import Wup.Lib.JsonRecord
import Wup.Schema

namespace Wup

open Json
open ExternalServices (structFields readString readVec readOption)

variable (J : SerdeJson)

-- ===================================================== normalized messages

def PriceLevel.toValue (l : PriceLevel) : Value :=
  .obj (.ofMembers [("price", .str l.price), ("size", .str l.size)])

def PriceLevel.ofValue (v : Value) : Option PriceLevel := do
  let field ← structFields ["price", "size"] v
  let price ← (field "price").bind readString
  let size ← (field "size").bind readString
  return ⟨price, size⟩

/-- `rename_all = "snake_case"`. -/
def OrderbookMessageType.json : OrderbookMessageType → String
  | .snapshot => "snapshot"
  | .delta => "delta"

def OrderbookMessageType.ofJson (name : String) :
    Option OrderbookMessageType :=
  if name = "snapshot" then some .snapshot
  else if name = "delta" then some .delta
  else none

/-- `rename_all = "UPPERCASE"`. -/
def Side.json : Side → String
  | .buy => "BUY"
  | .sell => "SELL"

def Side.ofJson (name : String) : Option Side :=
  if name = "BUY" then some .buy
  else if name = "SELL" then some .sell
  else none

def OrderbookUpdate.toValue (u : OrderbookUpdate) : Value :=
  .obj (.ofMembers
    [("side", .str u.side.json),
     ("price", .str u.price),
     ("size", .str u.size)])

def OrderbookUpdate.ofValue (v : Value) : Option OrderbookUpdate := do
  let field ← structFields ["side", "price", "size"] v
  let side ← (field "side").bind (readVariant Side.ofJson)
  let price ← (field "price").bind readString
  let size ← (field "size").bind readString
  return ⟨side, price, size⟩

/-- A `Vec` of records. -/
def vecValue {α : Type} (write : α → Value) (as : List α) : Value :=
  .arr (.ofElems (as.map write))

def NormalizedOrderbook.toValue (msg : NormalizedOrderbook) : Value :=
  .ofFields
    [("platform", some (.str msg.platform)),
     ("clob_token_id", some (.str msg.clobTokenId)),
     ("market_id", some (.str msg.marketId)),
     ("message_type", some (.str msg.messageType.json)),
     ("bids", msg.bids.map (vecValue PriceLevel.toValue)),
     ("asks", msg.asks.map (vecValue PriceLevel.toValue)),
     ("updates", msg.updates.map (vecValue OrderbookUpdate.toValue)),
     ("best_bid", msg.bestBid.map .str),
     ("best_ask", msg.bestAsk.map .str),
     ("exchange_timestamp", some (.str msg.exchangeTimestamp)),
     ("received_at", some (.num (.int msg.receivedAt))),
     ("normalized_at", some (.str msg.normalizedAt))]

def NormalizedOrderbook.ofValue (v : Value) :
    Option NormalizedOrderbook := do
  let field ← structFields
    ["platform", "clob_token_id", "market_id", "message_type", "bids",
      "asks", "updates", "best_bid", "best_ask", "exchange_timestamp",
      "received_at", "normalized_at"] v
  let platform ← (field "platform").bind readString
  let clobTokenId ← (field "clob_token_id").bind readString
  let marketId ← (field "market_id").bind readString
  let messageType ←
    (field "message_type").bind (readVariant OrderbookMessageType.ofJson)
  let bids ← readOption (readVec PriceLevel.ofValue) (field "bids")
  let asks ← readOption (readVec PriceLevel.ofValue) (field "asks")
  let updates ← readOption (readVec OrderbookUpdate.ofValue)
    (field "updates")
  let bestBid ← readOption readString (field "best_bid")
  let bestAsk ← readOption readString (field "best_ask")
  let exchangeTimestamp ← (field "exchange_timestamp").bind readString
  let receivedAt ← (field "received_at").bind
    (ExternalServices.readInt (-2 ^ 63) (2 ^ 63))
  let normalizedAt ← (field "normalized_at").bind readString
  return ⟨platform, clobTokenId, marketId, messageType, bids, asks, updates,
    bestBid, bestAsk, exchangeTimestamp, receivedAt, normalizedAt⟩

/-- The time of receipt fits its type. -/
def NormalizedOrderbook.Timely (msg : NormalizedOrderbook) : Prop :=
  -2 ^ 63 ≤ msg.receivedAt ∧ msg.receivedAt < 2 ^ 63

/-- `to_vec`. -/
def NormalizedOrderbook.toString (msg : NormalizedOrderbook) : String :=
  J.toString msg.toValue

/-- `from_str`. -/
def NormalizedOrderbook.fromStr (text : String) :
    Option NormalizedOrderbook :=
  (J.fromStr text).bind NormalizedOrderbook.ofValue

-- ======================================================== published events

def PlatformEntry.toValue (e : PlatformEntry) : Value :=
  .obj (.ofMembers [("platform", .str e.platform), ("size", .str e.size)])

def PlatformEntry.ofValue (v : Value) : Option PlatformEntry := do
  let field ← structFields ["platform", "size"] v
  let platform ← (field "platform").bind readString
  let size ← (field "size").bind readString
  return ⟨platform, size⟩

/-- `rename_all = "lowercase"`. -/
def OrderSide.ofJson (name : String) : Option OrderSide :=
  if name = "buy" then some .buy
  else if name = "sell" then some .sell
  else none

def AggregatedPriceLevel.toValue (l : AggregatedPriceLevel) : Value :=
  .obj (.ofMembers
    [("price", .str l.price),
     ("total_size", .str l.totalSize),
     ("platforms", vecValue PlatformEntry.toValue l.platforms)])

def AggregatedPriceLevelChange.toValue (c : AggregatedPriceLevelChange) :
    Value :=
  .obj (.ofMembers
    [("price", .str c.price),
     ("side", .str c.side.json),
     ("total_size", .str c.totalSize),
     ("platforms", vecValue PlatformEntry.toValue c.platforms)])

def AggregatedPriceLevelChange.ofValue (v : Value) :
    Option AggregatedPriceLevelChange := do
  let field ← structFields ["price", "side", "total_size", "platforms"] v
  let price ← (field "price").bind readString
  let side ← (field "side").bind (readVariant OrderSide.ofJson)
  let totalSize ← (field "total_size").bind readString
  let platforms ← (field "platforms").bind (readVec PlatformEntry.ofValue)
  return ⟨price, side, totalSize, platforms⟩

def AggregatedPriceChangeEvent.toValue (e : AggregatedPriceChangeEvent) :
    Value :=
  .obj (.ofMembers
    [("market_id", .str e.marketId),
     ("asset_id", .str e.assetId),
     ("changes", vecValue AggregatedPriceLevelChange.toValue e.changes),
     ("timestamp_us", .num (.int e.timestampUs))])

def AggregatedPriceChangeEvent.ofValue (v : Value) :
    Option AggregatedPriceChangeEvent := do
  let field ← structFields
    ["market_id", "asset_id", "changes", "timestamp_us"] v
  let marketId ← (field "market_id").bind readString
  let assetId ← (field "asset_id").bind readString
  let changes ←
    (field "changes").bind (readVec AggregatedPriceLevelChange.ofValue)
  let timestampUs ← (field "timestamp_us").bind
    (ExternalServices.readInt (-2 ^ 63) (2 ^ 63))
  return ⟨marketId, assetId, changes, timestampUs⟩

/-- The time fits its type. -/
def AggregatedPriceChangeEvent.Timely (e : AggregatedPriceChangeEvent) :
    Prop :=
  -2 ^ 63 ≤ e.timestampUs ∧ e.timestampUs < 2 ^ 63

/-- `to_vec`. -/
def AggregatedPriceChangeEvent.toString (e : AggregatedPriceChangeEvent) :
    String :=
  J.toString e.toValue

/-- `from_slice`. -/
def AggregatedPriceChangeEvent.fromSlice (text : String) :
    Option AggregatedPriceChangeEvent :=
  (J.fromStr text).bind AggregatedPriceChangeEvent.ofValue

end Wup
