/-
The orderbook service (`service.rs`): one message at a time, apply it to
the store and publish what changed.

`publishChange` re-reads the store after the message was applied: the
event says, for every price the message lists, what stands there now. A
price nobody quotes any more is reported as the message wrote it, with
total size "0" and no platforms.

# What is outside

The clock and the Redis lookups are parameters. A Redis error is treated
as nothing found, and a NATS publish as handing the event over. A sum that
the crate panics at is skipped here: the panics are those of
`OrPanic.processMessage`, which publishes the same event where there is
none.
-/
import Wup.Orderbook.Store

namespace Wup

variable (D : RustDecimal)

-- =============================================================== the event

/-- The prices a message lists, with their side: snapshot bids, then
asks, or the updates of a delta. -/
def affectedPrices (msg : NormalizedOrderbook) :
    List (String × OrderSide) :=
  match msg.messageType with
  | .snapshot =>
      (msg.bids.getD []).map (fun level => (level.price, .buy))
        ++ (msg.asks.getD []).map fun level => (level.price, .sell)
  | .delta =>
      (msg.updates.getD []).map fun update =>
        (update.price, update.side.toOrderSide)

/-- What stands at a listed price now. -/
def levelChange (store : OrderbookStore) (marketId assetId : String)
    (affected : String × OrderSide) : AggregatedPriceLevelChange :=
  let level := match affected.2 with
    | .buy => store.getAggregatedBidLevel D marketId assetId affected.1
    | .sell => store.getAggregatedAskLevel D marketId assetId affected.1
  match level with
  | some aggLevel =>
      { price := aggLevel.price
        side := affected.2
        totalSize := aggLevel.totalSize
        platforms := aggLevel.platforms }
  | none =>
      { price := affected.1
        side := affected.2
        totalSize := "0"
        platforms := [] }

/-- The event published for a message, read off the store that has
applied it, and the subject it goes to. -/
def publishChange (store : OrderbookStore) (msg : NormalizedOrderbook)
    (now : Int) : String × AggregatedPriceChangeEvent :=
  ("orderbook.changes." ++ msg.marketId ++ "." ++ msg.clobTokenId,
    { marketId := msg.marketId
      assetId := msg.clobTokenId
      changes := (affectedPrices msg).map
        (levelChange D store msg.marketId msg.clobTokenId)
      timestampUs := now })

-- ============================================================ the metadata

/-- What the service reads of a market's stored data. -/
structure MarketData where
  id : String
  question : Option String
deriving DecidableEq, Repr

/-- The Redis lookups: an event slug and the market. -/
structure RedisClient where
  findMarketByTokenId : String → String → Option (String × MarketData)
  findMarketById : String → String → Option (String × MarketData)

/-- Fetch market metadata and cache it: by token id, else by market id. -/
def fetchAndCacheMarketMetadata (redisClient : Option RedisClient)
    (store : OrderbookStore) (platform marketId clobTokenId : String) :
    OrderbookStore :=
  match redisClient with
  | none => store
  | some redis =>
      let found :=
        (redis.findMarketByTokenId platform clobTokenId).or
          (redis.findMarketById platform marketId)
      match found with
      | none => store
      | some (slug, market) =>
          store.cacheMarketMetadata marketId
            { questions := match market.question with
                | some question =>
                    (∅ : HashMap String String).insert platform question
                | none => ∅
              slugs := (∅ : HashMap String String).insert platform slug }

-- =============================================================== a message

/-- What of the service's configuration a message is processed with. -/
structure OrderbookService where
  redisClient : Option RedisClient
  publishChanges : Bool

/-- Process a single message: the store afterwards and what is
published. -/
def OrderbookService.processMessage (service : OrderbookService)
    (store : OrderbookStore) (msg : NormalizedOrderbook) (now : Int) :
    OrderbookStore × Option (String × AggregatedPriceChangeEvent) :=
  let store :=
    if (store.getCachedMarketMetadata msg.marketId).isNone then
      fetchAndCacheMarketMetadata service.redisClient store msg.platform
        msg.marketId msg.clobTokenId
    else store
  let store := store.apply D msg
  (store,
    if service.publishChanges then some (publishChange D store msg now)
    else none)

/-- Fetching metadata leaves the books alone. -/
theorem books_fetchAndCacheMarketMetadata
    (redisClient : Option RedisClient) (store : OrderbookStore)
    (platform marketId clobTokenId : String) :
    (fetchAndCacheMarketMetadata redisClient store platform marketId
      clobTokenId).books = store.books := by
  unfold fetchAndCacheMarketMetadata
  cases redisClient with
  | none => rfl
  | some redis =>
      cases h : (redis.findMarketByTokenId platform clobTokenId).or
          (redis.findMarketById platform marketId) with
      | none => simp [h]
      | some found => simp [h, OrderbookStore.cacheMarketMetadata]

/-- Processing a message moves the books as `apply` does. -/
theorem books_processMessage (service : OrderbookService)
    (store : OrderbookStore) (msg : NormalizedOrderbook) (now : Int) :
    (service.processMessage D store msg now).1.books
      = (store.apply D msg).books := by
  have hbooks : ∀ s : OrderbookStore, s.books = store.books →
      (s.apply D msg).books = (store.apply D msg).books := by
    intro s hs
    simp only [OrderbookStore.apply, hs]
  unfold OrderbookService.processMessage
  split
  · exact hbooks _ (books_fetchAndCacheMarketMetadata ..)
  · rfl

/-- What is published is the event of the store after the message. -/
theorem published_processMessage {service : OrderbookService}
    (h : service.publishChanges = true) (store : OrderbookStore)
    (msg : NormalizedOrderbook) (now : Int) :
    (service.processMessage D store msg now).2
      = some (publishChange D (service.processMessage D store msg now).1
          msg now) := by
  unfold OrderbookService.processMessage
  simp [h]

end Wup
