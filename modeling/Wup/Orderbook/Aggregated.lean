/-
The aggregated book: what a consumer of the change events sees of a book.

A key is a side and a numeric price; what stands there is the size of
every platform and their total, as numbers, and nothing where nobody
quotes (`AggLevel`). `OrderbookStore.aggregated` reads it off the store,
with the total as the sum of the sizes, and `OrderbookStore.reported`
with the total as the service adds it up; where sums are exact they are
one (`reported_eq`). `readChange` reads a change on the wire. A replica
patches its own copy with the readings of each event, in order; a change
whose price does not parse has no reading.

`readings_publishChange` is the reason replication works at all: an
event never tells what was listed, only what stands in the store, so its
readings are the reported book at the listed keys.
-/
import Wup.Lib.ChangeFeed
import Wup.Orderbook.Service

namespace Wup

variable (D : RustDecimal)

-- ================================================================ the view

/-- What stands at a price: sizes by platform, and the total. -/
@[ext]
structure AggLevel where
  sizes : String → Option ℚ
  total : Option ℚ

/-- A key of the aggregated book: side and price. -/
abbrev LevelKey := OrderSide × ℚ

/-- The numbers of a level, if anybody quotes there. -/
def PlatformSizes.aggregated (ps : PlatformSizes) : Option AggLevel :=
  if ps.isEmpty then none
  else some
    { sizes := fun q => (ps.get q).map (·.val)
      total := some (ps.sizes.values.map Decimal.val).sum }

/-- The numbers of a level as the service adds them up, if anybody quotes
there. -/
def PlatformSizes.reported (ps : PlatformSizes) : Option AggLevel :=
  if ps.isEmpty then none
  else some
    { sizes := fun q => (ps.get q).map (·.val)
      total := some (ps.totalSize D).val }

/-- The side of a book. -/
def Orderbook.levels (ob : Orderbook) : OrderSide → Levels
  | .buy => ob.bids
  | .sell => ob.asks

/-- The level stored at a key of a book. -/
def Orderbook.levelAt (ob : Orderbook) (k : LevelKey) :
    Option PlatformSizes :=
  (ob.levels k.1).get? k.2

namespace OrderbookStore

variable (store : OrderbookStore) (marketId assetId : String)

/-- The level stored at a key of an asset's book. -/
def levelAt (k : LevelKey) : Option PlatformSizes :=
  (store.bookAt marketId assetId).bind fun ob => ob.levelAt k

/-- The size a platform has at a key of an asset's book. -/
def sizeAt (k : LevelKey) (q : String) : Option Decimal :=
  (store.levelAt marketId assetId k).bind fun ps => ps.get q

/-- The aggregated book of an asset. -/
def aggregated (k : LevelKey) : Option AggLevel :=
  (store.levelAt marketId assetId k).bind PlatformSizes.aggregated

/-- The aggregated book of an asset, as the service adds it up. -/
def reported (k : LevelKey) : Option AggLevel :=
  (store.levelAt marketId assetId k).bind (PlatformSizes.reported D)

end OrderbookStore

theorem PlatformSizes.aggregated_eq_none_iff {ps : PlatformSizes} :
    ps.aggregated = none ↔ ps.isEmpty = true := by
  unfold PlatformSizes.aggregated
  cases ps.isEmpty <;> simp

theorem PlatformSizes.reported_eq_none_iff {ps : PlatformSizes} :
    ps.reported D = none ↔ ps.isEmpty = true := by
  unfold PlatformSizes.reported
  cases ps.isEmpty <;> simp

/-- An empty level and a missing one look the same. -/
theorem OrderbookStore.aggregated_eq_none_iff {store : OrderbookStore}
    {m a : String} {k : LevelKey} :
    store.aggregated m a k = none
      ↔ ∀ ps, store.levelAt m a k = some ps → ps.isEmpty = true := by
  unfold OrderbookStore.aggregated
  cases store.levelAt m a k with
  | none => simp
  | some ps => simp [PlatformSizes.aggregated_eq_none_iff]

theorem OrderbookStore.reported_eq_none_iff {store : OrderbookStore}
    {m a : String} {k : LevelKey} :
    store.reported D m a k = none ↔ store.aggregated m a k = none := by
  unfold OrderbookStore.reported OrderbookStore.aggregated
  cases store.levelAt m a k with
  | none => exact Iff.rfl
  | some ps =>
      rw [Option.bind_some, Option.bind_some,
        PlatformSizes.reported_eq_none_iff,
        PlatformSizes.aggregated_eq_none_iff]

/-- Where sums are exact the service's total is the sum. -/
theorem PlatformSizes.reported_eq {D : RustDecimal} (hD : D.Exact)
    (ps : PlatformSizes) : ps.reported D = ps.aggregated := by
  unfold PlatformSizes.reported PlatformSizes.aggregated
  rw [PlatformSizes.totalSize, hD.val_sum]

theorem OrderbookStore.reported_eq {D : RustDecimal} (hD : D.Exact)
    (store : OrderbookStore) (m a : String) :
    store.reported D m a = store.aggregated m a := by
  funext k
  unfold OrderbookStore.reported OrderbookStore.aggregated
  exact congrArg _ (funext (PlatformSizes.reported_eq hD))

-- ============================================================ the readings

/-- What a reported list of platforms and total says, if anybody is on
the list. -/
def readLevel (totalSize : String) (platforms : List PlatformEntry) :
    Option AggLevel :=
  if platforms = [] then none
  else some
    { sizes := fun q =>
        (platforms.find? fun e => e.platform = q).bind fun e =>
          D.num e.size
      total := D.num totalSize }

/-- What a change says: its key and what stands there now. -/
def readChange (c : AggregatedPriceLevelChange) :
    Option (LevelKey × Option AggLevel) :=
  (D.num c.price).map fun p =>
    ((c.side, p), readLevel D c.totalSize c.platforms)

/-- What an event says, change by change. -/
def AggregatedPriceChangeEvent.readings
    (event : AggregatedPriceChangeEvent) :
    List (LevelKey × Option AggLevel) :=
  event.changes.filterMap (readChange D)

/-- The keys a message lists. -/
def listedKeys (msg : NormalizedOrderbook) : List LevelKey :=
  (affectedPrices msg).filterMap fun e =>
    (D.num e.1).map fun p => (e.2, p)

-- ============================================================= the changes

/-- The level a store reports for a price text. -/
theorem getAggregatedBidLevel_eq (store : OrderbookStore)
    (m a t : String) :
    store.getAggregatedBidLevel D m a t
      = (D.fromStr t).bind fun price =>
          (store.levelAt m a (.buy, price.val)).bind fun ps =>
            if ps.isEmpty then none
            else some (aggregatedPriceLevel D price ps) := by
  unfold OrderbookStore.getAggregatedBidLevel OrderbookStore.levelAt
  cases store.bookAt m a <;> cases h : D.fromStr t <;>
    simp [Orderbook.getAggregatedBidLevel, getAggregatedLevel, h,
      Orderbook.levelAt, Orderbook.levels]

theorem getAggregatedAskLevel_eq (store : OrderbookStore)
    (m a t : String) :
    store.getAggregatedAskLevel D m a t
      = (D.fromStr t).bind fun price =>
          (store.levelAt m a (.sell, price.val)).bind fun ps =>
            if ps.isEmpty then none
            else some (aggregatedPriceLevel D price ps) := by
  unfold OrderbookStore.getAggregatedAskLevel OrderbookStore.levelAt
  cases store.bookAt m a <;> cases h : D.fromStr t <;>
    simp [Orderbook.getAggregatedAskLevel, getAggregatedLevel, h,
      Orderbook.levelAt, Orderbook.levels]

/-- A change is the report of the level on its side, or a removal. -/
theorem levelChange_eq (store : OrderbookStore) (m a t : String)
    (side : OrderSide) :
    levelChange D store m a (t, side)
      = ((D.fromStr t).bind fun price =>
          (store.levelAt m a (side, price.val)).bind fun ps =>
            if ps.isEmpty then none
            else some (aggregatedPriceLevel D price ps)).elim
          ⟨t, side, "0", []⟩
          fun aggLevel => ⟨aggLevel.price, side, aggLevel.totalSize,
            aggLevel.platforms⟩ := by
  unfold levelChange
  cases side with
  | buy =>
      simp only [getAggregatedBidLevel_eq]
      split <;> next h => rw [h]; rfl
  | sell =>
      simp only [getAggregatedAskLevel_eq]
      split <;> next h => rw [h]; rfl

/-- What a change can be: the report of a level somebody quotes, under
the printed query price, or the removal of one nobody does, under the
price as listed. -/
theorem levelChange_cases (store : OrderbookStore) (m a t : String)
    (side : OrderSide) :
    (∃ price ps, D.fromStr t = some price
        ∧ store.levelAt m a (side, price.val) = some ps
        ∧ ps.isEmpty = false
        ∧ levelChange D store m a (t, side)
          = { price := D.toString price
              side := side
              totalSize := D.toString (ps.totalSize D)
              platforms := ps.iter.map fun e => ⟨e.1, D.toString e.2⟩ })
      ∨ ((∀ p, D.num t = some p → store.aggregated m a (side, p) = none)
        ∧ levelChange D store m a (t, side)
          = { price := t
              side := side
              totalSize := "0"
              platforms := [] }) := by
  rw [levelChange_eq]
  unfold RustDecimal.num
  cases hp : D.fromStr t with
  | none =>
      refine Or.inr ⟨fun p h => ?_, rfl⟩
      cases h
  | some price =>
      cases hps : store.levelAt m a (side, price.val) with
      | none =>
          refine Or.inr ⟨fun p h => ?_, by simp [hps]⟩
          obtain rfl := Option.some.inj h
          simp [OrderbookStore.aggregated, hps]
      | some ps =>
          cases he : ps.isEmpty with
          | true =>
              refine Or.inr ⟨fun p h => ?_, by simp [hps, he]⟩
              obtain rfl := Option.some.inj h
              simp [OrderbookStore.aggregated, hps,
                PlatformSizes.aggregated_eq_none_iff, he]
          | false =>
              refine Or.inl ⟨price, ps, rfl, hps, he, ?_⟩
              simp [hps, he, aggregatedPriceLevel]

theorem side_levelChange (store : OrderbookStore) (m a : String)
    (e : String × OrderSide) :
    (levelChange D store m a e).side = e.2 := by
  rcases levelChange_cases D store m a e.1 e.2 with
    ⟨price, ps, -, -, -, h⟩ | ⟨-, h⟩
  · exact congrArg AggregatedPriceLevelChange.side h
  · exact congrArg AggregatedPriceLevelChange.side h

variable {D}

/-- Reading the reported form of a level gives back its numbers. -/
theorem readLevel_iter (hD : D.Lawful) (ps : PlatformSizes) :
    readLevel D (D.toString (ps.totalSize D))
        (ps.iter.map fun e => ⟨e.1, D.toString e.2⟩)
      = ps.reported D := by
  have hnil : (ps.iter.map fun e => PlatformEntry.mk e.1 (D.toString e.2))
      = [] ↔ ps.isEmpty = true := by
    simp [PlatformSizes.iter, PlatformSizes.isEmpty]
  unfold readLevel PlatformSizes.reported
  by_cases he : ps.isEmpty = true
  · rw [if_pos (hnil.2 he), if_pos he]
  · rw [if_neg fun h => he (hnil.1 h), if_neg he]
    refine congrArg some (AggLevel.ext ?_ ?_)
    · funext q
      show (List.find? _ (ps.iter.map _)).bind _ = (ps.get q).map _
      rw [PlatformSizes.get, HashMap.lookup_eq_find?, PlatformSizes.iter,
        List.map_map, List.find?_map]
      cases h : ps.sizes.entries.find? fun e => e.1 = q with
      | none => simp [Function.comp_def, h]
      | some e => simp [Function.comp_def, h, hD.num_toString]
    · show D.num (D.toString (ps.totalSize D)) = some _
      rw [hD.num_toString]

/-- A change says what stands in the store at its key. -/
theorem readChange_levelChange (hD : D.Lawful) (store : OrderbookStore)
    (m a : String) (t : String) (side : OrderSide) :
    readChange D (levelChange D store m a (t, side))
      = (D.num t).map fun p =>
          ((side, p), store.reported D m a (side, p)) := by
  rcases levelChange_cases D store m a t side with
    ⟨price, ps, hp, hps, -, hc⟩ | ⟨hgone, hc⟩
  · rw [hc, readChange, readLevel_iter hD, hD.num_toString,
      RustDecimal.num, hp]
    simp [OrderbookStore.reported, hps]
  · rw [hc, readChange, readLevel, if_pos rfl]
    cases hn : D.num t with
    | none => rfl
    | some p => rw [Option.map_some, Option.map_some,
        (OrderbookStore.reported_eq_none_iff D).2 (hgone p hn)]

/-- An event says what stands in the store at the listed keys. -/
theorem readings_publishChange (hD : D.Lawful) (store : OrderbookStore)
    (msg : NormalizedOrderbook) (now : Int) :
    (publishChange D store msg now).2.readings D
      = (listedKeys D msg).map fun k =>
          (k, store.reported D msg.marketId msg.clobTokenId k) := by
  unfold AggregatedPriceChangeEvent.readings publishChange listedKeys
  rw [List.filterMap_map, List.map_filterMap]
  refine List.filterMap_congr fun e _ => ?_
  rw [Function.comp_apply, readChange_levelChange hD, Option.map_map]
  rfl

end Wup
