/-
The accesses of the BBO cache to its concurrent maps (`bbo_cache.rs`), in
the order the handling of an event makes them: the lookups whose
references stay alive, the drops of these, and the writes.

The reference a lookup returns lives to the end of its `if let`, so the
removal of a platform's best is inside it. A lookup that finds nothing
leaves nothing alive. `entry` takes the write lock and is over at the end
of its statement; only the outer entry lives on, through the whole event.
-/
import Wup.Executor.BboCache
import Wup.Lib.Guards

namespace Wup.Executor

variable (D : RustDecimal)

/-- The concurrent maps the handling of an event touches. -/
inductive CacheMap
  /-- The outer map, of the entries. -/
  | cache
  | bestBids
  | bestAsks
deriving DecidableEq, Repr

/-- The accesses of a zero size: a lookup, and under it the removal of the
best where the price is the best. -/
def removalAccesses (map : CacheMap) (current : Option Decimal)
    (price : Decimal) : List (Access CacheMap) :=
  match current with
  | some currentBest =>
      if currentBest.val = price.val then
        [.get map, .write map, .drop map]
      else [.get map, .drop map]
  | none => []

def updateBidAccesses (entry : CachedBbo) (price : Decimal)
    (platform : String) (size : Decimal) : List (Access CacheMap) :=
  if size.isZero then
    removalAccesses .bestBids (entry.bestBids.lookup platform) price
  else [.write .bestBids]

def updateAskAccesses (entry : CachedBbo) (price : Decimal)
    (platform : String) (size : Decimal) : List (Access CacheMap) :=
  if size.isZero then
    removalAccesses .bestAsks (entry.bestAsks.lookup platform) price
  else [.write .bestAsks]

def platformAccesses (side : String) (price : Decimal) (entry : CachedBbo)
    (platformSize : PlatformSize) : List (Access CacheMap) :=
  match D.fromStr platformSize.size with
  | none => []
  | some size =>
      if side = "buy" then
        updateBidAccesses entry price platformSize.platform size
      else if side = "sell" then
        updateAskAccesses entry price platformSize.platform size
      else []

/-- The accesses of a loop: those of the steps it takes. -/
def forEachAccesses {S ι : Type} (step : S → ι → S × Option Halt)
    (accesses : S → ι → List (Access CacheMap)) :
    S → List ι → List (Access CacheMap)
  | _, [] => []
  | s, i :: is =>
      accesses s i ++
        match step s i with
        | (s, none) => forEachAccesses step accesses s is
        | (_, some _) => []

def priceChangeAccesses (entry : CachedBbo) (priceChange : PriceChange) :
    List (Access CacheMap) :=
  match D.fromStr priceChange.price with
  | none => []
  | some price =>
      forEachAccesses (handlePlatform D priceChange.side price)
        (platformAccesses D priceChange.side price) entry
        priceChange.platforms

namespace BboCache

/-- The entry of a market and asset, as `or_default` finds it. -/
def entry (cache : BboCache) (marketId assetId : String) : CachedBbo :=
  (cache.cache.lookup (marketId, assetId)).getD .default

/-- The accesses of `handleChange`: the outer entry is taken with a write
and held around the loop. -/
def accesses (cache : BboCache) (change : OrderbookChange) :
    List (Access CacheMap) :=
  .write .cache :: (.get .cache ::
    forEachAccesses (handlePriceChange D) (priceChangeAccesses D)
      (cache.entry change.marketId change.assetId) change.changes
    ++ [.drop .cache])

end BboCache

end Wup.Executor
