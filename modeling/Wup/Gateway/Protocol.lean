/-
The WebSocket protocol of the gateway (`protocol.rs`) and what it reads
from the orderbook service.

A client gets a snapshot when it subscribes and a price change for every
published event; both carry levels in the form the orderbook service
reports them. Serialisation is left out: a message stands for its JSON
text, which determines it.
-/
import Wup.Orderbook.Store

namespace Wup.Gateway

/-- Orderbook data with aggregated price levels. -/
structure OrderbookData where
  marketId : String
  assetId : String
  platforms : List String
  bids : List AggregatedPriceLevel
  asks : List AggregatedPriceLevel
  systemBestBid : Option String
  systemBestAsk : Option String
  timestampUs : Int
deriving DecidableEq

/-- Price change data with aggregated levels and explicit side. -/
structure PriceChangeData where
  marketId : String
  assetId : String
  changes : List AggregatedPriceLevelChange
  timestampUs : Int
deriving DecidableEq

/-- `From<AggregatedPriceChangeEvent>`. -/
def PriceChangeData.ofEvent (event : AggregatedPriceChangeEvent) :
    PriceChangeData where
  marketId := event.marketId
  assetId := event.assetId
  changes := event.changes
  timestampUs := event.timestampUs

/-- Message sent from client to server. -/
inductive ClientMessage
  | subscribe (subjects : List String)
  | unsubscribe (subjects : List String)
  | ping
deriving DecidableEq

/-- Message sent from server to client. -/
inductive ServerMessage
  | snapshot (data : OrderbookData)
  | priceChange (data : PriceChangeData)
  | pong
  | subscribed (subjects : List String)
  | unsubscribed (subjects : List String)
  | error (message code : String)
deriving DecidableEq

/-- Orderbook response from the HTTP API. -/
structure OrderbookHttpResponse where
  assetId : String
  marketId : String
  platforms : List String
  bids : List AggregatedPriceLevel
  asks : List AggregatedPriceLevel
  systemBestBid : Option String
  systemBestAsk : Option String
deriving DecidableEq

/-- The fields the gateway reads of the service's response. -/
def OrderbookHttpResponse.ofResponse (response : OrderbookResponse) :
    OrderbookHttpResponse where
  assetId := response.assetId
  marketId := response.marketId
  platforms := response.platforms
  bids := response.bids
  asks := response.asks
  systemBestBid := response.systemBestBid
  systemBestAsk := response.systemBestAsk

/-- Market orderbooks response from the HTTP API. -/
structure MarketOrderbooksHttpResponse where
  marketId : String
  assetCount : Nat
  assets : List OrderbookHttpResponse
deriving DecidableEq

/-- The fields the gateway reads of the service's market response. -/
def MarketOrderbooksHttpResponse.ofResponse
    (response : MarketOrderbooksResponse) :
    MarketOrderbooksHttpResponse where
  marketId := response.marketId
  assetCount := response.assetCount
  assets := response.assets.map .ofResponse

/-- Convert to orderbook data for WebSocket. -/
def OrderbookHttpResponse.toOrderbookData (response : OrderbookHttpResponse)
    (timestampUs : Int) : OrderbookData where
  marketId := response.marketId
  assetId := response.assetId
  platforms := response.platforms
  bids := response.bids
  asks := response.asks
  systemBestBid := response.systemBestBid
  systemBestAsk := response.systemBestAsk
  timestampUs := timestampUs

end Wup.Gateway
