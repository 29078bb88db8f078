/-
The Polymarket adapter (`adapter.rs`): the raw messages of the exchange
and how they become normalized ones.

A book message becomes one snapshot. A price change message may list
changes of several assets; it is grouped by asset into one delta each,
with the best prices the last change of the asset carries. The groups
come out in the order the hash map yields them, which is a parameter.

How a payload is read into raw messages is in Normalizer/Payload.lean.
-/
import Wup.Lib.HashMap
import Wup.Schema

namespace Wup.Normalizer

/-- The name the adapter gives its platform. -/
def PolymarketAdapter.name : String := "polymarket"

-- ============================================================ raw messages

structure RawPriceLevel where
  price : String
  size : String
deriving DecidableEq, Repr

structure RawBookMessage where
  eventType : String
  assetId : String
  market : String
  bids : List RawPriceLevel
  asks : List RawPriceLevel
  timestamp : String
  hash : String
  receivedAt : Int
deriving DecidableEq, Repr

structure RawPriceChange where
  assetId : String
  price : String
  size : String
  side : String
  hash : String
  bestBid : String
  bestAsk : String
deriving DecidableEq, Repr

structure RawPriceChangeMessage where
  eventType : String
  market : String
  priceChanges : List RawPriceChange
  timestamp : String
  receivedAt : Int
deriving DecidableEq, Repr

-- ========================================================== transformation

/-- A level under its normalized type. -/
def RawPriceLevel.toPriceLevel (l : RawPriceLevel) : PriceLevel where
  price := l.price
  size := l.size

def transformBook (book : RawBookMessage) (normalizedAt : String) :
    NormalizedOrderbook :=
  let bids := book.bids.map RawPriceLevel.toPriceLevel
  let asks := book.asks.map RawPriceLevel.toPriceLevel
  { platform := PolymarketAdapter.name
    clobTokenId := book.assetId
    marketId := book.market
    messageType := .snapshot
    bids := some bids
    asks := some asks
    updates := none
    bestBid := bids.head?.map (·.price)
    bestAsk := asks.head?.map (·.price)
    exchangeTimestamp := book.timestamp
    receivedAt := book.receivedAt
    normalizedAt := normalizedAt }

/-- A change as an update: whatever is not a buy is a sell. -/
def RawPriceChange.toUpdate (c : RawPriceChange) : OrderbookUpdate where
  side := if c.side = "BUY" then .buy else .sell
  price := c.price
  size := c.size

/-- The changes by asset, and the best prices last seen for it. -/
abbrev Grouped :=
  HashMap String (List RawPriceChange) × HashMap String (String × String)

/-- File one change. -/
def groupChange (g : Grouped) (change : RawPriceChange) : Grouped :=
  (g.1.upsert change.assetId fun changes => changes.getD [] ++ [change],
    g.2.insert change.assetId (change.bestBid, change.bestAsk))

/-- File the changes of a message. -/
def groupChanges (changes : List RawPriceChange) : Grouped :=
  changes.foldl groupChange (∅, ∅)

/-- An order for the groups of a message. -/
abbrev GroupOrder := HashMap.IterOrder String (List RawPriceChange)

def transformPriceChange (order : GroupOrder) (msg : RawPriceChangeMessage)
    (normalizedAt : String) : List NormalizedOrderbook :=
  let (grouped, bestPrices) := groupChanges msg.priceChanges
  (order.entries grouped).map fun (clobTokenId, changes) =>
    let (bestBid, bestAsk) := (bestPrices.lookup clobTokenId).getD ("", "")
    { platform := PolymarketAdapter.name
      clobTokenId := clobTokenId
      marketId := msg.market
      messageType := .delta
      bids := none
      asks := none
      updates := some (changes.map RawPriceChange.toUpdate)
      bestBid := some bestBid
      bestAsk := some bestAsk
      exchangeTimestamp := msg.timestamp
      receivedAt := msg.receivedAt
      normalizedAt := normalizedAt }

-- ================================================================ grouping

/-- The changes of an asset, in wire order. -/
def changesOf (changes : List RawPriceChange) (a : String) :
    List RawPriceChange :=
  changes.filter fun c => c.assetId = a

/-- A group is the changes of its asset; there is one for every asset
with a change. -/
theorem lookup_grouped (changes : List RawPriceChange) (a : String) :
    (groupChanges changes).1.lookup a
      = if changesOf changes a = [] then none
        else some (changesOf changes a) := by
  have h := foldl_component (fun g : Grouped => g.1.lookup a) groupChange
    (fun o c => some (o.getD [] ++ [c])) (fun c => c.assetId = a)
    (fun g c => by
      by_cases hc : c.assetId = a
      · simp [groupChange, hc]
      · simp [groupChange, hc, Ne.symm hc])
    (∅, ∅) changes
  have hempty : AList.lookup a (∅ : HashMap String (List RawPriceChange))
      = none := AList.lookup_empty a
  rw [hempty, foldl_getD_eq [] fun acc (c : RawPriceChange) =>
    acc ++ [c]] at h
  have hall : ∀ cs acc : List RawPriceChange,
      cs.foldl (fun acc c => acc ++ [c]) acc = acc ++ cs := by
    intro cs
    induction cs with
    | nil => intro acc; simp
    | cons c cs ih => intro acc; simp [ih]
  rw [hall, Option.getD_none, List.nil_append] at h
  exact h

/-- The best prices kept for an asset are its last change's. -/
theorem lookup_bestPrices (changes : List RawPriceChange) (a : String) :
    (groupChanges changes).2.lookup a
      = (changesOf changes a).getLast?.map fun c =>
          (c.bestBid, c.bestAsk) := by
  have h := foldl_component (fun g : Grouped => g.2.lookup a) groupChange
    (fun _ c => some (c.bestBid, c.bestAsk)) (fun c => c.assetId = a)
    (fun g c => by
      unfold groupChange
      simp only [HashMap.lookup_insert', decide_eq_true_eq,
        eq_comm (a := a)])
    (∅, ∅) changes
  have hlast : ∀ (cs : List RawPriceChange) (o : Option (String × String)),
      cs.foldl (fun _ c => some (c.bestBid, c.bestAsk)) o
        = (cs.getLast?.map fun c => (c.bestBid, c.bestAsk)).or o := by
    intro cs
    induction cs using List.reverseRecOn with
    | nil => intro o; rfl
    | append_singleton cs c _ => intro o; simp
  rw [hlast] at h
  exact h.trans (Option.or_none)

end Wup.Normalizer
