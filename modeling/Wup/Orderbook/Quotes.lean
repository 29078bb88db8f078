/-
What a book is for, said flat: each platform has, on each side and at
each price, at most one size, and the last message that speaks about it
decides (`Quotes`).

`Quotes.step` is the reference. It knows no levels, no map of maps, no
pruning; prices are numbers. A message of another platform is invisible,
a snapshot starts from nothing, a delta starts from what there was.

`Orderbook.quotes` reads the flat map off a book. That the book's own
`apply` moves it by `Quotes.step` is proved in
Orderbook/Proofs/Refinement.lean; everything derived from a book that
depends only on its quotes (best prices, level counts) inherits from
there.
-/
import Wup.Orderbook.Book

namespace Wup

variable (D : RustDecimal)

/-- The sizes one platform quotes, by side and price. -/
abbrev Quotes := Side → ℚ → Option Decimal

namespace Quotes

/-- No quotes. -/
def none : Quotes := fun _ _ => Option.none

/-- Decide one (side, price). -/
def set (f : Quotes) (side : Side) (p : ℚ) (v : Option Decimal) : Quotes :=
  fun s r => if s = side ∧ r = p then v else f s r

/-- A snapshot level: skipped when its price or size does not parse or
its size is zero. -/
def setLevel (side : Side) (f : Quotes) (level : PriceLevel) : Quotes :=
  match D.fromStr level.price, D.fromStr level.size with
  | some price, some size =>
      if size.isZero then f else f.set side price.val (some size)
  | _, _ => f

/-- A delta update: skipped when its price or size does not parse, an
erasure when its size is zero. -/
def setUpdate (f : Quotes) (u : OrderbookUpdate) : Quotes :=
  match D.fromStr u.price, D.fromStr u.size with
  | some price, some size =>
      f.set u.side price.val
        (if size.isZero then Option.none else some size)
  | _, _ => f

/-- A message as platform `q` sees it. -/
def step (q : String) (f : Quotes) (msg : NormalizedOrderbook) : Quotes :=
  if msg.platform = q then
    match msg.messageType with
    | .snapshot =>
        (msg.asks.getD []).foldl (setLevel D .sell)
          ((msg.bids.getD []).foldl (setLevel D .buy) none)
    | .delta => (msg.updates.getD []).foldl (setUpdate D) f
  else f

end Quotes

/-- The size platform `q` holds at a side and price of the book. -/
def Orderbook.sizeAt (ob : Orderbook) (side : Side) (p : ℚ) (q : String) :
    Option Decimal :=
  ((ob.book side.isBid).get? p).bind fun ps => ps.get q

/-- What platform `q` quotes in the book. -/
def Orderbook.quotes (ob : Orderbook) (q : String) : Quotes :=
  fun side p => ob.sizeAt side p q

end Wup
