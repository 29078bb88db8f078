/-
The readers of a book, with the panics of their arithmetic.

The crate's `+` and `-` panic where `checkedAdd` and `checkedSub` have no
result, and `Iterator::sum` adds with `+`. These are the readers of
`orderbook.rs` and `store.rs` once more, under their own names, where
every such operation may panic and ends the reader if it does, and with
them what the service publishes; the fields they fill without arithmetic
are those of the plain readers.

The sizes of a level are added in the order its hash map yields them. Two
maps of the same content may yield them differently, so the readers of a
book take an order for each of its levels. The store's readers are run
in the order the entries are kept in.
-/
import Wup.Orderbook.Service

namespace Wup

/-- What a decimal operation panics with. -/
inductive Overflow where
  | addition
  | subtraction
deriving DecidableEq, Repr

/-- A computation that may panic. -/
abbrev OrPanic := Except Overflow

/-- The order in which a level yields its sizes. -/
abbrev LevelOrder := HashMap.IterOrder String Decimal

/-- The orders of the levels of a side, by price. -/
abbrev LevelOrders := ℚ → LevelOrder

namespace OrPanic

variable (D : RustDecimal)

-- ========================================================== the arithmetic

/-- `+`. -/
def add (a b : Decimal) : OrPanic Decimal :=
  match D.checkedAdd a b with
  | some sum => .ok sum
  | none => .error .addition

/-- `-`. -/
def sub (a b : Decimal) : OrPanic Decimal :=
  match D.checkedSub a b with
  | some difference => .ok difference
  | none => .error .subtraction

/-- `Iterator::sum`. -/
def sum (ds : List Decimal) : OrPanic Decimal := ds.foldlM (add D) .zero

-- ====================================================== a level and a side

/-- Total size across all platforms. -/
def totalSize (order : LevelOrder) (ps : PlatformSizes) : OrPanic Decimal :=
  sum D ((order.entries ps.sizes).map (·.2))

/-- A level as it is reported. -/
def aggregatedPriceLevel (order : LevelOrder) (price : Decimal)
    (sizes : PlatformSizes) : OrPanic AggregatedPriceLevel := do
  let total ← totalSize D order sizes
  return {
    price := D.toString price
    totalSize := D.toString total
    platforms := (order.entries sizes.sizes).map fun e =>
      ⟨e.1, D.toString e.2⟩ }

variable (orders : LevelOrders)

/-- A side's aggregated level at a price given as text. -/
def getAggregatedLevel (book : Levels) (price : String) :
    OrPanic (Option AggregatedPriceLevel) :=
  match D.fromStr price with
  | none => return none
  | some price =>
      match book.get? price.val with
      | none => return none
      | some sizes =>
          if sizes.isEmpty then return none
          else some <$>
            aggregatedPriceLevel D (orders price.val) price sizes

/-- Sum of all sizes of a side: each level is totalled and then added. -/
def depth (book : Levels) : OrPanic Decimal :=
  book.entries.foldlM (fun acc e => do
    let total ← totalSize D (orders e.1.val) e.2
    add D acc total) .zero

/-- The first `n` levels of a walk, with platform breakdown. -/
def topWithPlatforms (walk : List (Decimal × PlatformSizes))
    (n : Option Nat) : OrPanic (List AggregatedPriceLevel) :=
  (topLevels walk n).mapM fun e =>
    aggregatedPriceLevel D (orders e.1.val) e.1 e.2

-- ================================================================== a book

section Book

variable (orders : OrderSide → LevelOrders) (ob : Orderbook)

/-- Mid price if both sides have liquidity; halving cannot overflow. -/
def midPrice : OrPanic (Option Decimal) :=
  match ob.systemBestBid, ob.systemBestAsk with
  | some bid, some ask => do
      let sum ← add D bid ask
      return some (D.div sum ⟨2, 0⟩)
  | _, _ => return none

/-- Spread if both sides have liquidity. -/
def spread : OrPanic (Option Decimal) :=
  match ob.systemBestBid, ob.systemBestAsk with
  | some bid, some ask => some <$> sub D ask bid
  | _, _ => return none

/-- Top bid levels with platform breakdown, descending by price. -/
def topBidsWithPlatforms (n : Option Nat) :
    OrPanic (List AggregatedPriceLevel) :=
  topWithPlatforms D (orders .buy) ob.bids.entries.reverse n

/-- Top ask levels with platform breakdown, ascending by price. -/
def topAsksWithPlatforms (n : Option Nat) :
    OrPanic (List AggregatedPriceLevel) :=
  topWithPlatforms D (orders .sell) ob.asks.entries n

/-- Aggregated bid level at a specific price. -/
def getAggregatedBidLevel (price : String) :
    OrPanic (Option AggregatedPriceLevel) :=
  getAggregatedLevel D (orders .buy) ob.bids price

/-- Aggregated ask level at a specific price. -/
def getAggregatedAskLevel (price : String) :
    OrPanic (Option AggregatedPriceLevel) :=
  getAggregatedLevel D (orders .sell) ob.asks price

/-- Total bid depth. -/
def bidDepth : OrPanic Decimal := depth D (orders .buy) ob.bids

/-- Total ask depth. -/
def askDepth : OrPanic Decimal := depth D (orders .sell) ob.asks

/-- Convert to the full API response. -/
def toResponse (depth : Option Nat) (metadata : ResponseMetadata) :
    OrPanic OrderbookResponse := do
  let bids ← topBidsWithPlatforms D orders ob depth
  let asks ← topAsksWithPlatforms D orders ob depth
  let midPrice ← midPrice D ob
  let spread ← spread D ob
  let bidDepth ← bidDepth D orders ob
  let askDepth ← askDepth D orders ob
  return { ob.toResponse D depth metadata with
    bids, asks
    midPrice := midPrice.map D.toString
    spread := spread.map D.toString
    bidDepth := D.toString bidDepth
    askDepth := D.toString askDepth }

/-- Convert to the BBO response. -/
def toBboResponse (metadata : ResponseMetadata) : OrPanic BboResponse := do
  let midPrice ← midPrice D ob
  let spread ← spread D ob
  return { ob.toBboResponse D metadata with
    midPrice := midPrice.map D.toString
    spread := spread.map D.toString }

end Book

-- =============================================================== the store

section Store

variable (store : OrderbookStore) (marketId assetId : String)

/-- Get a specific orderbook. -/
def get (depth : Option Nat) : OrPanic (Option OrderbookResponse) :=
  (store.bookAt marketId assetId).mapM fun ob =>
    toResponse D (fun _ _ => .stored) ob depth
      (store.buildResponseMetadata marketId)

/-- Get BBO for a specific asset. -/
def getBbo : OrPanic (Option BboResponse) :=
  (store.bookAt marketId assetId).mapM fun ob =>
    toBboResponse D ob (store.buildResponseMetadata marketId)

/-- Get all orderbooks for a market. -/
def getMarket (depth : Option Nat) :
    OrPanic (Option MarketOrderbooksResponse) :=
  let metadata := store.buildResponseMetadata marketId
  (store.books.lookup marketId).mapM fun marketBooks => do
    let assets ← marketBooks.values.mapM fun ob =>
      toResponse D (fun _ _ => .stored) ob depth metadata
    return {
      marketId := marketId
      questions := metadata.marketQuestions
      slugs := metadata.marketSlugs
      assetCount := assets.length
      assets := assets }

/-- Get all BBOs for a market. -/
def getMarketBbos : OrPanic (Option MarketBbosResponse) :=
  let metadata := store.buildResponseMetadata marketId
  (store.books.lookup marketId).mapM fun marketBooks => do
    let bbos ← marketBooks.values.mapM fun ob => toBboResponse D ob metadata
    return {
      marketId := marketId
      questions := metadata.marketQuestions
      slugs := metadata.marketSlugs
      assetCount := bbos.length
      bbos := bbos }

/-- The levels a message lists, as they are read to be published. -/
def affectedLevels (msg : NormalizedOrderbook) :
    OrPanic (List (Option AggregatedPriceLevel)) :=
  (affectedPrices msg).mapM fun affected =>
    match store.bookAt msg.marketId msg.clobTokenId, affected.2 with
    | none, _ => return none
    | some ob, .buy =>
        getAggregatedBidLevel D (fun _ _ => .stored) ob affected.1
    | some ob, .sell =>
        getAggregatedAskLevel D (fun _ _ => .stored) ob affected.1

end Store

/-- Process a single message: the store afterwards and what is published,
if nothing panics before. -/
def processMessage (service : OrderbookService) (store : OrderbookStore)
    (msg : NormalizedOrderbook) (now : Int) :
    OrderbookStore
      × OrPanic (Option (String × AggregatedPriceChangeEvent)) :=
  let r := service.processMessage D store msg now
  (r.1,
    if service.publishChanges then do
      let _ ← affectedLevels D r.1 msg
      return r.2
    else return none)

end OrPanic

end Wup
