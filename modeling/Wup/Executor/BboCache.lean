/-
The executor's local BBO cache (`bbo_cache.rs`): per market and asset,
one best bid and one best ask price for each platform, kept from the
change events of the orderbook service.

A change raises a platform's best bid (lowers its best ask) where it
reports a size, and forgets the best where it reports a zero size at it.
An unparsable price or size ends the handling of the event; what was done
before stays done.

# Blocking

The zero-size branch removes an entry of a concurrent map while it still
holds the reference it looked the entry up with. Such a write never
returns, so the handling ends there for good (`Halt.blocked`).

The iteration order of a concurrent map is the order of its entries. Of
several greatest prices the search for the best bid takes the last, of
several least the search for the best ask takes the first.
-/
import Wup.Lib.Extremum
import Wup.Lib.HashMap
import Wup.Schema

namespace Wup.Executor

variable (D : RustDecimal)

-- ================================================================ the wire

/-- Platform size at a price level. -/
structure PlatformSize where
  platform : String
  size : String
deriving DecidableEq, Repr

/-- Price level change. -/
structure PriceChange where
  side : String
  price : String
  platforms : List PlatformSize
deriving DecidableEq, Repr

/-- Orderbook change message from NATS. -/
structure OrderbookChange where
  marketId : String
  assetId : String
  changes : List PriceChange
deriving DecidableEq, Repr

/-- A published change as the cache receives it. -/
def PriceChange.ofChange (c : AggregatedPriceLevelChange) : PriceChange where
  side := c.side.json
  price := c.price
  platforms := c.platforms.map fun e => ⟨e.platform, e.size⟩

/-- A published event as the cache receives it. -/
def OrderbookChange.ofEvent (event : AggregatedPriceChangeEvent) :
    OrderbookChange where
  marketId := event.marketId
  assetId := event.assetId
  changes := event.changes.map .ofChange

-- =============================================================== the cache

/-- Cached BBO per market and asset: platform to best price. -/
structure CachedBbo where
  bestBids : HashMap String Decimal
  bestAsks : HashMap String Decimal

/-- The empty entry. -/
def CachedBbo.default : CachedBbo := ⟨∅, ∅⟩

/-- Local BBO cache, by market and asset. -/
structure BboCache where
  cache : HashMap (String × String) CachedBbo

/-- Why the handling of an event ends early. -/
inductive Halt
  /-- A price or size does not parse. -/
  | decimalParse
  /-- A write waits for a reference the same thread holds. -/
  | blocked
deriving DecidableEq, Repr

/-- A loop that may end early. -/
def forEach {S ι : Type} (step : S → ι → S × Option Halt) :
    S → List ι → S × Option Halt
  | s, [] => (s, none)
  | s, i :: is =>
      match step s i with
      | (s, none) => forEach step s is
      | (s, some halt) => (s, some halt)

/-- Take one platform's size at a bid price into account. -/
def updateBid (entry : CachedBbo) (price : Decimal) (platform : String)
    (size : Decimal) : CachedBbo × Option Halt :=
  if size.isZero then
    match entry.bestBids.lookup platform with
    | some currentBest =>
        if currentBest.val = price.val then (entry, some .blocked)
        else (entry, none)
    | none => (entry, none)
  else
    ({ entry with
        bestBids := entry.bestBids.upsert platform fun current =>
          match current with
          | some current =>
              if current.val < price.val then price else current
          | none => price },
      none)

/-- Take one platform's size at an ask price into account. -/
def updateAsk (entry : CachedBbo) (price : Decimal) (platform : String)
    (size : Decimal) : CachedBbo × Option Halt :=
  if size.isZero then
    match entry.bestAsks.lookup platform with
    | some currentBest =>
        if currentBest.val = price.val then (entry, some .blocked)
        else (entry, none)
    | none => (entry, none)
  else
    ({ entry with
        bestAsks := entry.bestAsks.upsert platform fun current =>
          match current with
          | some current =>
              if price.val < current.val then price else current
          | none => price },
      none)

/-- Process one platform of a price level change. -/
def handlePlatform (side : String) (price : Decimal) (entry : CachedBbo)
    (platformSize : PlatformSize) : CachedBbo × Option Halt :=
  match D.fromStr platformSize.size with
  | none => (entry, some .decimalParse)
  | some size =>
      if side = "buy" then
        updateBid entry price platformSize.platform size
      else if side = "sell" then
        updateAsk entry price platformSize.platform size
      else (entry, none)

/-- Process one price level change. -/
def handlePriceChange (entry : CachedBbo) (priceChange : PriceChange) :
    CachedBbo × Option Halt :=
  match D.fromStr priceChange.price with
  | none => (entry, some .decimalParse)
  | some price =>
      forEach (handlePlatform D priceChange.side price) entry
        priceChange.platforms

namespace BboCache

/-- Create a new empty cache. -/
def new : BboCache := ⟨∅⟩

/-- Handle an incoming orderbook change: the cache afterwards, and why
the handling ended early, if it did. -/
def handleChange (cache : BboCache) (change : OrderbookChange) :
    BboCache × Option Halt :=
  let key := (change.marketId, change.assetId)
  let r := forEach (handlePriceChange D)
    ((cache.cache.lookup key).getD .default) change.changes
  (⟨cache.cache.insert key r.1⟩, r.2)

/-- `max_by_key`: the last entry of greatest price. -/
def maxByKey (entries : List (String × Decimal)) :
    Option (String × Decimal) :=
  search (fun e best => !decide (e.2.val < best.2.val)) entries

/-- `min_by_key`: the first entry of least price. -/
def minByKey (entries : List (String × Decimal)) :
    Option (String × Decimal) :=
  search (fun e best => decide (e.2.val < best.2.val)) entries

/-- Best bid across all platforms (highest): platform and price. -/
def bestBid (cache : BboCache) (marketId assetId : String) :
    Option (String × Decimal) :=
  (cache.cache.lookup (marketId, assetId)).bind fun entry =>
    maxByKey (entry.bestBids.entries.map fun e => (e.1, e.2))

/-- Best ask across all platforms (lowest): platform and price. -/
def bestAsk (cache : BboCache) (marketId assetId : String) :
    Option (String × Decimal) :=
  (cache.cache.lookup (marketId, assetId)).bind fun entry =>
    minByKey (entry.bestAsks.entries.map fun e => (e.1, e.2))

/-- BBO for a specific platform. -/
def getPlatformBbo (cache : BboCache) (marketId assetId platform : String) :
    Option (Option Decimal × Option Decimal) :=
  (cache.cache.lookup (marketId, assetId)).map fun entry =>
    (entry.bestBids.lookup platform, entry.bestAsks.lookup platform)

end BboCache

end Wup.Executor
