/-
The orderbook store (`store.rs`): market id to asset id to book, with a
metadata cache and two message counters.

The concurrent maps are hash maps here; each operation of the source
takes the entry it touches for itself. The counters are 64-bit and wrap.
-/
import Wup.Orderbook.Book

namespace Wup

variable (D : RustDecimal)

/-- Cached market metadata, by platform. -/
structure MarketMetadata where
  questions : HashMap String String
  slugs : HashMap String String

/-- The store. -/
structure OrderbookStore where
  books : HashMap String (HashMap String Orderbook)
  marketMetadataCache : HashMap String MarketMetadata
  totalSnapshots : UInt64
  totalDeltas : UInt64

/-- All orderbooks of one market. -/
structure MarketOrderbooksResponse where
  marketId : String
  questions : HashMap String String
  slugs : HashMap String String
  assetCount : Nat
  assets : List OrderbookResponse

/-- All BBOs of one market. -/
structure MarketBbosResponse where
  marketId : String
  questions : HashMap String String
  slugs : HashMap String String
  assetCount : Nat
  bbos : List BboResponse

/-- Market summary for listing. -/
structure MarketSummary where
  marketId : String
  questions : HashMap String String
  slugs : HashMap String String
  assetCount : Nat
  assets : List TokenSummary

/-- Response listing all orderbooks. -/
structure AllOrderbooksResponse where
  marketCount : Nat
  totalAssets : Nat
  totalSnapshots : UInt64
  totalDeltas : UInt64
  markets : List MarketSummary

/-- Store statistics. -/
structure StoreStats where
  marketCount : Nat
  totalAssets : Nat
  totalSnapshots : UInt64
  totalDeltas : UInt64

namespace OrderbookStore

/-- Create a new empty store. -/
def new : OrderbookStore := ⟨∅, ∅, 0, 0⟩

/-- Cache market metadata by market id. -/
def cacheMarketMetadata (store : OrderbookStore) (marketId : String)
    (metadata : MarketMetadata) : OrderbookStore :=
  { store with
    marketMetadataCache :=
      store.marketMetadataCache.insert marketId metadata }

/-- Get cached market metadata by market id. -/
def getCachedMarketMetadata (store : OrderbookStore) (marketId : String) :
    Option MarketMetadata :=
  store.marketMetadataCache.lookup marketId

/-- Build response metadata from cached market metadata. -/
def buildResponseMetadata (store : OrderbookStore) (marketId : String) :
    ResponseMetadata :=
  let marketMeta := store.getCachedMarketMetadata marketId
  { marketId := marketId
    marketQuestions := (marketMeta.map (·.questions)).getD ∅
    marketSlugs := (marketMeta.map (·.slugs)).getD ∅ }

/-- Apply a normalized orderbook message, creating the market's and the
asset's entries if they don't exist. -/
def apply (store : OrderbookStore) (msg : NormalizedOrderbook) :
    OrderbookStore :=
  { store with
    books := store.books.upsert msg.marketId fun marketBooks =>
      (marketBooks.getD ∅).upsert msg.clobTokenId fun orderbook =>
        (orderbook.getD (.new msg.clobTokenId msg.marketId)).apply D msg
    totalSnapshots := match msg.messageType with
      | .snapshot => store.totalSnapshots + 1
      | .delta => store.totalSnapshots
    totalDeltas := match msg.messageType with
      | .snapshot => store.totalDeltas
      | .delta => store.totalDeltas + 1 }

/-- The book of an asset. -/
def bookAt (store : OrderbookStore) (marketId assetId : String) :
    Option Orderbook :=
  (store.books.lookup marketId).bind fun marketBooks =>
    marketBooks.lookup assetId

/-- Get a specific orderbook. -/
def get (store : OrderbookStore) (marketId assetId : String)
    (depth : Option Nat) : Option OrderbookResponse :=
  (store.bookAt marketId assetId).map fun ob =>
    ob.toResponse D depth (store.buildResponseMetadata marketId)

/-- Get BBO for a specific asset. -/
def getBbo (store : OrderbookStore) (marketId assetId : String) :
    Option BboResponse :=
  (store.bookAt marketId assetId).map fun ob =>
    ob.toBboResponse D (store.buildResponseMetadata marketId)

/-- Get all orderbooks for a market. -/
def getMarket (store : OrderbookStore) (marketId : String)
    (depth : Option Nat) : Option MarketOrderbooksResponse :=
  let metadata := store.buildResponseMetadata marketId
  (store.books.lookup marketId).map fun marketBooks =>
    let assets := marketBooks.values.map fun ob =>
      ob.toResponse D depth metadata
    { marketId := marketId
      questions := metadata.marketQuestions
      slugs := metadata.marketSlugs
      assetCount := assets.length
      assets := assets }

/-- Get all BBOs for a market. -/
def getMarketBbos (store : OrderbookStore) (marketId : String) :
    Option MarketBbosResponse :=
  let metadata := store.buildResponseMetadata marketId
  (store.books.lookup marketId).map fun marketBooks =>
    let bbos := marketBooks.values.map fun ob => ob.toBboResponse D metadata
    { marketId := marketId
      questions := metadata.marketQuestions
      slugs := metadata.marketSlugs
      assetCount := bbos.length
      bbos := bbos }

/-- Get aggregated bid level at a specific price. -/
def getAggregatedBidLevel (store : OrderbookStore)
    (marketId assetId price : String) : Option AggregatedPriceLevel :=
  (store.bookAt marketId assetId).bind fun ob =>
    ob.getAggregatedBidLevel D price

/-- Get aggregated ask level at a specific price. -/
def getAggregatedAskLevel (store : OrderbookStore)
    (marketId assetId price : String) : Option AggregatedPriceLevel :=
  (store.bookAt marketId assetId).bind fun ob =>
    ob.getAggregatedAskLevel D price

/-- The summary of one market. -/
def marketSummary (store : OrderbookStore)
    (entry : String × HashMap String Orderbook) : MarketSummary :=
  let metadata := store.buildResponseMetadata entry.1
  let assetSummaries := entry.2.values.map fun ob =>
    ob.toSummary D metadata
  let marketMeta := store.getCachedMarketMetadata entry.1
  { marketId := entry.1
    questions := (marketMeta.map (·.questions)).getD ∅
    slugs := (marketMeta.map (·.slugs)).getD ∅
    assetCount := assetSummaries.length
    assets := assetSummaries }

/-- List all markets and their assets (summary only). -/
def listAll (store : OrderbookStore) : AllOrderbooksResponse :=
  let markets := store.books.entries.map fun e =>
    store.marketSummary D (e.1, e.2)
  { marketCount := markets.length
    totalAssets := (markets.map (·.assetCount)).sum
    totalSnapshots := store.totalSnapshots
    totalDeltas := store.totalDeltas
    markets := markets }

/-- Get store statistics. -/
def stats (store : OrderbookStore) : StoreStats where
  marketCount := store.books.entries.length
  totalAssets :=
    (store.books.values.map fun market => market.entries.length).sum
  totalSnapshots := store.totalSnapshots
  totalDeltas := store.totalDeltas

end OrderbookStore

end Wup
