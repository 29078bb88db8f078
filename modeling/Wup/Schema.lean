/-
The normalizer's schema: the messages the services exchange.

Every exchange message becomes a `NormalizedOrderbook`; the orderbook
service answers it with an `AggregatedPriceChangeEvent`. Prices and sizes
are text on the wire. Serialization is taken to be faithful: a consumer
receives the record that was sent.
-/
import Wup.Decimal

namespace Wup

/-- Price level in the orderbook. -/
structure PriceLevel where
  price : String
  size : String
deriving DecidableEq, Repr

/-- Type of orderbook message. -/
inductive OrderbookMessageType
  | snapshot
  | delta
deriving DecidableEq, Repr

/-- Order side of an exchange update. -/
inductive Side
  | buy
  | sell
deriving DecidableEq, Repr

/-- `matches!(side, Side::Buy)`. -/
def Side.isBid : Side → Bool
  | .buy => true
  | .sell => false

theorem Side.isBid_inj {a b : Side} : a.isBid = b.isBid ↔ a = b := by
  cases a <;> cases b <;> decide

/-- Individual update in a delta message. -/
structure OrderbookUpdate where
  side : Side
  price : String
  size : String
deriving DecidableEq, Repr

/-- Normalized orderbook message. -/
structure NormalizedOrderbook where
  platform : String
  clobTokenId : String
  marketId : String
  messageType : OrderbookMessageType
  bids : Option (List PriceLevel)
  asks : Option (List PriceLevel)
  updates : Option (List OrderbookUpdate)
  bestBid : Option String
  bestAsk : Option String
  exchangeTimestamp : String
  receivedAt : Int
  normalizedAt : String
deriving DecidableEq, Repr

namespace NormalizedOrderbook

variable (platform marketId clobTokenId : String)

/-- A snapshot that reports levels only. -/
def snapshotOf (bids asks : List PriceLevel) : NormalizedOrderbook where
  platform := platform
  clobTokenId := clobTokenId
  marketId := marketId
  messageType := .snapshot
  bids := some bids
  asks := some asks
  updates := none
  bestBid := none
  bestAsk := none
  exchangeTimestamp := ""
  receivedAt := 0
  normalizedAt := ""

/-- A delta that reports updates only. -/
def deltaOf (updates : List OrderbookUpdate) : NormalizedOrderbook :=
  { snapshotOf platform marketId clobTokenId [] [] with
    messageType := .delta
    bids := none
    asks := none
    updates := some updates }

end NormalizedOrderbook

/-- Platform entry showing a platform's size at a price level. -/
structure PlatformEntry where
  platform : String
  size : String
deriving DecidableEq, Repr

/-- Aggregated price level with platform breakdown. -/
structure AggregatedPriceLevel where
  price : String
  totalSize : String
  platforms : List PlatformEntry
deriving DecidableEq, Repr

/-- Order side of a price change event. -/
inductive OrderSide
  | buy
  | sell
deriving DecidableEq, Repr

/-- `From<Side>`. -/
def Side.toOrderSide : Side → OrderSide
  | .buy => .buy
  | .sell => .sell

/-- The lowercase JSON text of an order side. -/
def OrderSide.json : OrderSide → String
  | .buy => "buy"
  | .sell => "sell"

theorem OrderSide.json_inj {s t : OrderSide} :
    s.json = t.json ↔ s = t := by
  cases s <;> cases t <;> decide

/-- Aggregated price level change with explicit side. -/
structure AggregatedPriceLevelChange where
  price : String
  side : OrderSide
  totalSize : String
  platforms : List PlatformEntry
deriving DecidableEq, Repr

/-- Aggregated price change event published to NATS. -/
structure AggregatedPriceChangeEvent where
  marketId : String
  assetId : String
  changes : List AggregatedPriceLevelChange
  timestampUs : Int
deriving DecidableEq, Repr

end Wup
