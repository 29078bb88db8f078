/-
The in-memory orderbook (`orderbook.rs`).

Each side maps a price to the sizes the platforms quote there
(`PlatformSizes`). A message touches one platform: a snapshot replaces
what that platform quotes, a delta updates it price by price, and both
recompute the system best prices and prune the levels nobody quotes any
more.

A price level is stored under the decimal that created it (`BTreeMap`
keeps the first key), and found by any decimal of the same value.

The readers at the end are the ones the HTTP API and the change publisher
use. The bid and ask readers differ only in the side they walk and in its
direction; each is one shared definition at its side.
-/
import Wup.Lib.BTreeMap
import Wup.Lib.HashMap
import Wup.Schema

namespace Wup

variable (D : RustDecimal)

-- ========================================================== platform sizes

/-- Order sizes from multiple platforms at a single price level. -/
structure PlatformSizes where
  sizes : HashMap String Decimal
deriving DecidableEq

namespace PlatformSizes

/-- Create new empty platform sizes. -/
def new : PlatformSizes := ⟨∅⟩

/-- Set the size for a platform; a zero size removes the platform. -/
def set (ps : PlatformSizes) (platform : String) (size : Decimal) :
    PlatformSizes :=
  if size.isZero then ⟨ps.sizes.erase platform⟩
  else ⟨ps.sizes.insert platform size⟩

/-- Get the size for a platform. -/
def get (ps : PlatformSizes) (platform : String) : Option Decimal :=
  ps.sizes.lookup platform

/-- Total size across all platforms. -/
def totalSize (ps : PlatformSizes) : Decimal := D.sum ps.sizes.values

/-- No platform has orders at this level. -/
def isEmpty (ps : PlatformSizes) : Bool := ps.sizes.entries.isEmpty

/-- All (platform, size) pairs. -/
def iter (ps : PlatformSizes) : List (String × Decimal) :=
  ps.sizes.entries.map fun e => (e.1, e.2)

/-- Drop a platform from this level. -/
def clearPlatform (ps : PlatformSizes) (platform : String) :
    PlatformSizes :=
  ⟨ps.sizes.erase platform⟩

@[simp] theorem get_new (q : String) : new.get q = none := rfl

@[simp] theorem get_set (ps : PlatformSizes) (platform q : String)
    (size : Decimal) :
    (ps.set platform size).get q
      = if q = platform then (if size.isZero then none else some size)
        else ps.get q := by
  unfold set get
  cases hz : size.isZero with
  | true => exact HashMap.lookup_erase' ps.sizes platform q
  | false => exact HashMap.lookup_insert' ps.sizes platform q size

@[simp] theorem get_clearPlatform (ps : PlatformSizes)
    (platform q : String) :
    (ps.clearPlatform platform).get q
      = if q = platform then none else ps.get q :=
  HashMap.lookup_erase' ps.sizes platform q

theorem isEmpty_iff {ps : PlatformSizes} :
    ps.isEmpty = true ↔ ∀ q, ps.get q = none := by
  unfold isEmpty get
  rw [List.isEmpty_iff, HashMap.entries_eq_nil_iff]

theorem isEmpty_eq_false_iff {ps : PlatformSizes} :
    ps.isEmpty = false ↔ ∃ q, (ps.get q).isSome = true := by
  rw [← Bool.not_eq_true, isEmpty_iff]
  simp [Option.isSome_iff_ne_none]

theorem mem_iter {ps : PlatformSizes} {e : String × Decimal} :
    e ∈ ps.iter ↔ ps.get e.1 = some e.2 := by
  unfold iter get
  rw [List.mem_map]
  refine ⟨fun h => ?_, fun h => ?_⟩
  · obtain ⟨e', he', rfl⟩ := h
    exact AList.mem_lookup_iff.2 he'
  · exact ⟨⟨e.1, e.2⟩, AList.mem_lookup_iff.1 h, rfl⟩

end PlatformSizes

-- ================================================================ the book

/-- One side of a book: price to platform sizes, sorted by price. -/
abbrev Levels := BTreeMap Decimal.val PlatformSizes

/-- The orderbook of one asset. -/
structure Orderbook where
  clobTokenId : String
  marketId : String
  bids : Levels
  asks : Levels
  platforms : List String
  exchangeBestBid : HashMap String String
  exchangeBestAsk : HashMap String String
  systemBestBid : Option Decimal
  systemBestAsk : Option Decimal
  lastExchangeTimestamp : String
  lastReceivedAt : Int
  updateCount : UInt64

namespace Orderbook

/-- Create a new empty orderbook. -/
def new (clobTokenId marketId : String) : Orderbook where
  clobTokenId := clobTokenId
  marketId := marketId
  bids := .empty _ _
  asks := .empty _ _
  platforms := []
  exchangeBestBid := ∅
  exchangeBestAsk := ∅
  systemBestBid := none
  systemBestAsk := none
  lastExchangeTimestamp := ""
  lastReceivedAt := 0
  updateCount := 0

/-- The side `is_bid` picks. -/
def book (ob : Orderbook) (isBid : Bool) : Levels :=
  if isBid then ob.bids else ob.asks

/-- Rewrite the side `is_bid` picks. -/
def modifyBook (ob : Orderbook) (isBid : Bool) (f : Levels → Levels) :
    Orderbook :=
  if isBid then { ob with bids := f ob.bids }
  else { ob with asks := f ob.asks }

/-- Track a platform if not already known. -/
def trackPlatform (ob : Orderbook) (platform : String) : Orderbook :=
  if platform ∈ ob.platforms then ob
  else { ob with platforms := ob.platforms ++ [platform] }

/-- Update the exchange-reported BBO of the message's platform. -/
def recordExchangeBbo (ob : Orderbook) (msg : NormalizedOrderbook) :
    Orderbook :=
  { ob with
    exchangeBestBid := match msg.bestBid with
      | some bid => ob.exchangeBestBid.insert msg.platform bid
      | none => ob.exchangeBestBid
    exchangeBestAsk := match msg.bestAsk with
      | some ask => ob.exchangeBestAsk.insert msg.platform ask
      | none => ob.exchangeBestAsk }

/-- Insert a price level for a platform; an unparsable or zero level is
skipped. -/
def insertLevelPlatform (ob : Orderbook) (priceStr sizeStr : String)
    (isBid : Bool) (platform : String) : Orderbook :=
  match D.fromStr priceStr with
  | none => ob
  | some price =>
      match D.fromStr sizeStr with
      | none => ob
      | some size =>
          if !size.isZero then
            ob.modifyBook isBid fun book =>
              book.upsert price fun ps =>
                (ps.getD .new).set platform size
          else ob

/-- Replace a platform's data with snapshot data. -/
def applySnapshotPlatform (ob : Orderbook) (msg : NormalizedOrderbook)
    (platform : String) : Orderbook :=
  let ob := { ob with
    bids := ob.bids.mapValues (·.clearPlatform platform)
    asks := ob.asks.mapValues (·.clearPlatform platform) }
  let ob := (msg.bids.getD []).foldl (fun ob level =>
    ob.insertLevelPlatform D level.price level.size true platform) ob
  (msg.asks.getD []).foldl (fun ob level =>
    ob.insertLevelPlatform D level.price level.size false platform) ob

/-- Apply a single update for a platform: an unparsable one is skipped,
any other reaches the level's entry, created if need be. -/
def applyUpdatePlatform (ob : Orderbook) (update : OrderbookUpdate)
    (platform : String) : Orderbook :=
  let isBid := update.side.isBid
  match D.fromStr update.price with
  | none => ob
  | some price =>
      match D.fromStr update.size with
      | none => ob
      | some size =>
          ob.modifyBook isBid fun book =>
            book.upsert price fun ps => (ps.getD .new).set platform size

/-- Apply incremental delta updates for a platform. -/
def applyDeltaPlatform (ob : Orderbook) (msg : NormalizedOrderbook)
    (platform : String) : Orderbook :=
  (msg.updates.getD []).foldl
    (fun ob update => ob.applyUpdatePlatform D update platform) ob

/-- The price level changes of a message. -/
def applyChanges (ob : Orderbook) (msg : NormalizedOrderbook) :
    Orderbook :=
  match msg.messageType with
  | .snapshot => ob.applySnapshotPlatform D msg msg.platform
  | .delta => ob.applyDeltaPlatform D msg msg.platform

/-- Recalculate the system best bid and ask: the last, respectively the
first, level that is not empty. -/
def recalculateSystemBbo (ob : Orderbook) : Orderbook :=
  { ob with
    systemBestBid :=
      (ob.bids.entries.reverse.find? fun e => !e.2.isEmpty).map (·.1)
    systemBestAsk :=
      (ob.asks.entries.find? fun e => !e.2.isEmpty).map (·.1) }

/-- Remove empty price levels. -/
def cleanupEmptyLevels (ob : Orderbook) : Orderbook :=
  { ob with
    bids := ob.bids.retain fun sizes => !sizes.isEmpty
    asks := ob.asks.retain fun sizes => !sizes.isEmpty }

/-- Apply a normalized orderbook message. -/
def apply (ob : Orderbook) (msg : NormalizedOrderbook) : Orderbook :=
  let ob := ob.trackPlatform msg.platform
  let ob := ob.recordExchangeBbo msg
  let ob := ob.applyChanges D msg
  let ob := ob.recalculateSystemBbo
  let ob := ob.cleanupEmptyLevels
  { ob with
    lastExchangeTimestamp := msg.exchangeTimestamp
    lastReceivedAt := msg.receivedAt
    updateCount := ob.updateCount + 1 }

end Orderbook

-- ============================================================= the readers

/-- A level as it is reported: printed price, printed total, printed size
of every platform. -/
def aggregatedPriceLevel (price : Decimal) (sizes : PlatformSizes) :
    AggregatedPriceLevel where
  price := D.toString price
  totalSize := D.toString (sizes.totalSize D)
  platforms := sizes.iter.map fun e => ⟨e.1, D.toString e.2⟩

/-- The first `n` non-empty levels of a walk. A missing `n` stands for
`usize::MAX`, which no number of levels in memory reaches. -/
def topLevels (walk : List (Decimal × PlatformSizes)) (n : Option Nat) :
    List (Decimal × PlatformSizes) :=
  let live := walk.filter fun e => !e.2.isEmpty
  match n with
  | some n => live.take n
  | none => live

/-- A side's aggregated level at a price given as text. -/
def getAggregatedLevel (book : Levels) (price : String) :
    Option AggregatedPriceLevel :=
  (D.fromStr price).bind fun price =>
    (book.get? price.val).bind fun sizes =>
      if sizes.isEmpty then none
      else some (aggregatedPriceLevel D price sizes)

/-- Sum of all sizes of a side across all platforms. -/
def depth (book : Levels) : Decimal :=
  D.sum (book.entries.map fun e => e.2.totalSize D)

/-- Number of non-empty price levels of a side. -/
def levelCount (book : Levels) : Nat :=
  (book.entries.filter fun e => !e.2.isEmpty).length

namespace Orderbook

variable (ob : Orderbook)

/-- Mid price if both sides have liquidity. -/
def midPrice : Option Decimal :=
  match ob.systemBestBid, ob.systemBestAsk with
  | some bid, some ask => some (D.div (D.add bid ask) ⟨2, 0⟩)
  | _, _ => none

/-- Spread if both sides have liquidity. -/
def spread : Option Decimal :=
  match ob.systemBestBid, ob.systemBestAsk with
  | some bid, some ask => some (D.sub ask bid)
  | _, _ => none

/-- Top N bid levels with aggregated sizes, descending by price. -/
def topBids (n : Nat) : List (Decimal × Decimal) :=
  (topLevels ob.bids.entries.reverse (some n)).map fun e =>
    (e.1, e.2.totalSize D)

/-- Top N ask levels with aggregated sizes, ascending by price. -/
def topAsks (n : Nat) : List (Decimal × Decimal) :=
  (topLevels ob.asks.entries (some n)).map fun e => (e.1, e.2.totalSize D)

/-- Top bid levels with platform breakdown, descending by price. -/
def topBidsWithPlatforms (n : Option Nat) : List AggregatedPriceLevel :=
  (topLevels ob.bids.entries.reverse n).map fun e =>
    aggregatedPriceLevel D e.1 e.2

/-- Top ask levels with platform breakdown, ascending by price. -/
def topAsksWithPlatforms (n : Option Nat) : List AggregatedPriceLevel :=
  (topLevels ob.asks.entries n).map fun e =>
    aggregatedPriceLevel D e.1 e.2

/-- Aggregated bid level at a specific price. -/
def getAggregatedBidLevel (price : String) : Option AggregatedPriceLevel :=
  getAggregatedLevel D ob.bids price

/-- Aggregated ask level at a specific price. -/
def getAggregatedAskLevel (price : String) : Option AggregatedPriceLevel :=
  getAggregatedLevel D ob.asks price

/-- Total bid depth. -/
def bidDepth : Decimal := depth D ob.bids

/-- Total ask depth. -/
def askDepth : Decimal := depth D ob.asks

/-- Number of bid price levels. -/
def bidLevels : Nat := levelCount ob.bids

/-- Number of ask price levels. -/
def askLevels : Nat := levelCount ob.asks

/-- No level of either side has orders. -/
def isEmpty : Bool :=
  ob.bids.entries.all (fun e => e.2.isEmpty)
    && ob.asks.entries.all fun e => e.2.isEmpty

end Orderbook

-- =========================================================== API responses

/-- Market information for API responses. -/
structure MarketInfo where
  marketId : String
  questions : HashMap String String
  slugs : HashMap String String

/-- Metadata passed to response generation. -/
structure ResponseMetadata where
  marketId : String
  marketQuestions : HashMap String String
  marketSlugs : HashMap String String

/-- Full orderbook API response. -/
structure OrderbookResponse where
  market : MarketInfo
  assetId : String
  marketId : String
  platforms : List String
  bids : List AggregatedPriceLevel
  asks : List AggregatedPriceLevel
  exchangeBestBid : HashMap String String
  exchangeBestAsk : HashMap String String
  systemBestBid : Option String
  systemBestAsk : Option String
  midPrice : Option String
  spread : Option String
  bidDepth : String
  askDepth : String
  bidLevels : Nat
  askLevels : Nat
  lastExchangeTimestamp : String
  lastReceivedAt : Int
  updateCount : UInt64

/-- BBO (best bid/offer) API response. -/
structure BboResponse where
  assetId : String
  marketId : String
  market : MarketInfo
  exchangeBestBid : HashMap String String
  exchangeBestAsk : HashMap String String
  systemBestBid : Option String
  systemBestAsk : Option String
  midPrice : Option String
  spread : Option String
  lastReceivedAt : Int

/-- Token summary for listing. -/
structure TokenSummary where
  assetId : String
  platforms : List String
  systemBestBid : Option String
  systemBestAsk : Option String
  bidLevels : Nat
  askLevels : Nat
  updateCount : UInt64

namespace Orderbook

/-- Convert to the full API response; no depth means all levels. -/
def toResponse (ob : Orderbook) (depth : Option Nat)
    (metadata : ResponseMetadata) : OrderbookResponse where
  market :=
    { marketId := metadata.marketId
      questions := metadata.marketQuestions
      slugs := metadata.marketSlugs }
  assetId := ob.clobTokenId
  marketId := ob.marketId
  platforms := ob.platforms
  bids := ob.topBidsWithPlatforms D depth
  asks := ob.topAsksWithPlatforms D depth
  exchangeBestBid := ob.exchangeBestBid
  exchangeBestAsk := ob.exchangeBestAsk
  systemBestBid := ob.systemBestBid.map D.toString
  systemBestAsk := ob.systemBestAsk.map D.toString
  midPrice := (ob.midPrice D).map D.toString
  spread := (ob.spread D).map D.toString
  bidDepth := D.toString (ob.bidDepth D)
  askDepth := D.toString (ob.askDepth D)
  bidLevels := ob.bidLevels
  askLevels := ob.askLevels
  lastExchangeTimestamp := ob.lastExchangeTimestamp
  lastReceivedAt := ob.lastReceivedAt
  updateCount := ob.updateCount

/-- Convert to the BBO response. -/
def toBboResponse (ob : Orderbook) (metadata : ResponseMetadata) :
    BboResponse where
  assetId := ob.clobTokenId
  marketId := ob.marketId
  market :=
    { marketId := metadata.marketId
      questions := metadata.marketQuestions
      slugs := metadata.marketSlugs }
  exchangeBestBid := ob.exchangeBestBid
  exchangeBestAsk := ob.exchangeBestAsk
  systemBestBid := ob.systemBestBid.map D.toString
  systemBestAsk := ob.systemBestAsk.map D.toString
  midPrice := (ob.midPrice D).map D.toString
  spread := (ob.spread D).map D.toString
  lastReceivedAt := ob.lastReceivedAt

/-- Convert to the summary used for listing. -/
def toSummary (ob : Orderbook) (_metadata : ResponseMetadata) :
    TokenSummary where
  assetId := ob.clobTokenId
  platforms := ob.platforms
  systemBestBid := ob.systemBestBid.map D.toString
  systemBestAsk := ob.systemBestAsk.map D.toString
  bidLevels := ob.bidLevels
  askLevels := ob.askLevels
  updateCount := ob.updateCount

end Orderbook

end Wup
