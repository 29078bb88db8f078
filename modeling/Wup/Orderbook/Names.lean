/-
The names of a price level on the wire.

The service writes the price of a level in three places: the full
response prints the stored key, a change of a level that stands prints
the price it was asked about, and a removal repeats the text of the
message. `emitted` collects, for one key of one asset, all of them at one
step of a run: the event published for the message and what the API
answers afterwards. `OneName` is the property of a run that within each
lifetime of the level they are one string.

`Spelled` is the condition on a step that decides it, read off the
message and the book before: it looks at the stored key, at the texts
the message lists for the level, and at whether somebody still quotes
there by the last-writer reference.
-/
import Wup.Orderbook.Aggregated
import Wup.Orderbook.Proofs.Family

namespace Wup

variable (D : RustDecimal)

-- =============================================================== the names

/-- The decimal a level is stored under. -/
def OrderbookStore.keyAt (store : OrderbookStore)
    (marketId assetId : String) (side : Side) (p : ℚ) : Option Decimal :=
  (store.bookAt marketId assetId).bind fun ob =>
    (ob.book side.isBid).getKey? p

/-- The price texts of the full response for a level. -/
def responseNames (store : OrderbookStore) (marketId assetId : String)
    (side : Side) (p : ℚ) : List String :=
  match store.get D marketId assetId none with
  | none => []
  | some response =>
      let levels := match side with
        | .buy => response.bids
        | .sell => response.asks
      (levels.map (·.price)).filter fun t => D.num t = some p

/-- The price texts of an event for a level. -/
def eventNames (event : AggregatedPriceChangeEvent) (side : Side)
    (p : ℚ) : List String :=
  ((event.changes.filter fun c => c.side = side.toOrderSide).map
    (·.price)).filter fun t => D.num t = some p

-- ================================================================= the run

section Run

variable (clock : Nat → Int) (msgs : List NormalizedOrderbook)
  (marketId assetId : String) (side : Side) (p : ℚ)

/-- The store before step `i` of a run. -/
def storeAt (i : Nat) : OrderbookStore := runStore D (msgs.take i)

/-- All price texts emitted for a level at step `i`: by the event of the
message, if it is one of the asset, and by the API afterwards. -/
def emitted (i : Nat) : List String :=
  (match msgs[i]? with
    | some msg =>
        if msg.key = (marketId, assetId) then
          eventNames D
            (publishChange D (storeAt D msgs (i + 1)) msg (clock i)).2
            side p
        else []
    | none => [])
    ++ responseNames D (storeAt D msgs (i + 1)) marketId assetId side p

/-- The level is listed before step `i`. -/
def LevelLive (i : Nat) : Prop :=
  responseNames D (storeAt D msgs i) marketId assetId side p ≠ []

/-- Steps `i` and `j` belong to one lifetime of the level, the step that
creates it and the step that removes it included. -/
structure SameLife (i j : Nat) : Prop where
  le : i ≤ j
  lt : j < msgs.length
  between : ∀ n, i < n → n ≤ j → LevelLive D msgs marketId assetId side p n
  touches : LevelLive D msgs marketId assetId side p i
    ∨ LevelLive D msgs marketId assetId side p (i + 1)

/-- Within each lifetime the level has one name. -/
def OneName : Prop :=
  ∀ i j, SameLife D msgs marketId assetId side p i j →
    ∀ x ∈ emitted D clock msgs marketId assetId side p i,
      ∀ y ∈ emitted D clock msgs marketId assetId side p j, x = y

end Run

-- =========================================================== the condition

/-- The texts a message lists for a level. -/
def listedTexts (msg : NormalizedOrderbook) (side : Side) (p : ℚ) :
    List String :=
  ((affectedPrices msg).filter fun e =>
    e.2 = side.toOrderSide ∧ D.num e.1 = some p).map (·.1)

/-- Somebody quotes at the level once the message is taken into account,
by the last-writer reference. -/
def QuotedAfter (store : OrderbookStore) (msg : NormalizedOrderbook)
    (side : Side) (p : ℚ) : Prop :=
  ∃ q, (((((store.bookAt msg.marketId msg.clobTokenId).getD
    (.new msg.clobTokenId msg.marketId)).quotes q).step D q msg) side
      p).isSome = true

/-- A message spells a level as the book does: while the level stands,
its texts parse to the stored decimal (to one decimal, when the message
creates the level); when it removes the level, they are the stored
decimal as printed. -/
def Spelled (store : OrderbookStore) (msg : NormalizedOrderbook)
    (side : Side) (p : ℚ) : Prop :=
  (QuotedAfter D store msg side p →
    ∃ d, (∀ key, store.keyAt msg.marketId msg.clobTokenId side p
        = some key → key = d)
      ∧ ∀ t ∈ listedTexts D msg side p, D.fromStr t = some d)
    ∧ (¬ QuotedAfter D store msg side p →
      ∀ key, store.keyAt msg.marketId msg.clobTokenId side p = some key →
        ∀ t ∈ listedTexts D msg side p, t = D.toString key)

end Wup
