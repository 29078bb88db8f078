/-
How much of a published event the BBO cache consumes.

Three parties meet an unparsable price with three policies. The store
skips the level and goes on. The publisher finds nothing at the price and
forwards its text as a removal. The cache stops at it, with the changes
before it done and the ones after it lost.

Nothing else ends the handling early: the prices and sizes of a level
that stands are printed decimals, and no published size is zero, so the
loop never reaches the write that blocks. So an event is consumed in full
exactly when every price the message lists parses (`consumed_iff`).
-/
import Wup.Executor.Proofs.Tracking

namespace Wup.Executor

variable {D : RustDecimal}

-- =============================================================== the loops

/-- A loop that came to its end has taken every step to its end. -/
theorem forEach_eq_none {S ι : Type} {step : S → ι → S × Option Halt}
    {s : S} {is : List ι} (h : (forEach step s is).2 = none) {i : ι}
    (hi : i ∈ is) : ∃ s', (step s' i).2 = none := by
  induction is generalizing s with
  | nil => cases hi
  | cons j js ih =>
      unfold forEach at h
      split at h
      · next s' hj =>
          rcases List.mem_cons.1 hi with rfl | hi
          · exact ⟨s, by rw [hj]⟩
          · exact ih h hi
      · cases h

-- ============================================================= consumption

/-- The changes of an event whose price parses. -/
def OrderbookChange.parsable (D : RustDecimal) (change : OrderbookChange) :
    OrderbookChange :=
  { change with
    changes := change.changes.filter fun c => (D.fromStr c.price).isSome }

/-- An event is handled without an error, and every change of it whose
price parses is processed: the cache ends as if these were all. -/
def ConsumedInFull (D : RustDecimal) (cache : BboCache)
    (change : OrderbookChange) : Prop :=
  (cache.handleChange D change).2 = none
    ∧ (cache.handleChange D change).1
      = (cache.handleChange D (change.parsable D)).1

section Event

variable {store : OrderbookStore} {msg : NormalizedOrderbook}

/-- A published price parses exactly when the listed text does. -/
theorem isSome_fromStr_levelChange (hD : D.Lawful) (m a t : String)
    (side : OrderSide) :
    (D.fromStr (levelChange D store m a (t, side)).price).isSome
      = (D.fromStr t).isSome := by
  rcases levelChange_cases D store m a t side with
    ⟨price, ps, hp, -, -, hc⟩ | ⟨-, hc⟩
  · rw [hc, hD.fromStr_toString, hp]
  · rw [hc]

/-- A change is handled to its end at some entry only if its price
parses. -/
theorem fromStr_of_handled {entry : CachedBbo} {c : PriceChange}
    (h : (handlePriceChange D entry c).2 = none) :
    (D.fromStr c.price).isSome = true := by
  unfold handlePriceChange at h
  cases hp : D.fromStr c.price with
  | none => rw [hp] at h; cases h
  | some price => rfl

/-- The event of a message is consumed in full exactly when all its
listed prices parse. -/
theorem consumedInFull_ofEvent (hD : D.Lawful) (h : store.BooksValid)
    (cache : BboCache) (now : Int) :
    ConsumedInFull D cache (.ofEvent (publishChange D store msg now).2)
      ↔ ∀ e ∈ affectedPrices msg, (D.fromStr e.1).isSome = true := by
  refine ⟨fun hfull e he => ?_, fun hparse => ?_⟩
  · -- the change made for a listed price has been handled
    have hend : (forEach (handlePriceChange D) _ _).2 = none := hfull.1
    have hc : PriceChange.ofChange
        (levelChange D store msg.marketId msg.clobTokenId e)
          ∈ (OrderbookChange.ofEvent
            (publishChange D store msg now).2).changes := by
      rw [changes_ofEvent]
      exact List.mem_map_of_mem he
    obtain ⟨entry, hentry⟩ := forEach_eq_none hend hc
    have hprice := fromStr_of_handled hentry
    have hsame : (D.fromStr (levelChange D store msg.marketId
        msg.clobTokenId e).price).isSome = (D.fromStr e.1).isSome :=
      isSome_fromStr_levelChange hD ..
    rwa [← hsame]
  · have hreadable : ∀ c ∈ (OrderbookChange.ofEvent
        (publishChange D store msg now).2).changes, c.Readable D := by
      intro c hc
      rw [changes_ofEvent] at hc
      obtain ⟨⟨t, side⟩, he, rfl⟩ := List.mem_map.1 hc
      obtain ⟨price, hp⟩ := Option.isSome_iff_exists.1 (hparse _ he)
      have hnum : D.num t = some price.val := by
        rw [RustDecimal.num, hp, Option.map_some]
      exact (published_change hD h _ _ t side hnum).1
    have hall : (OrderbookChange.ofEvent
        (publishChange D store msg now).2).parsable D
          = .ofEvent (publishChange D store msg now).2 := by
      unfold OrderbookChange.parsable
      rw [List.filter_eq_self.2]
      intro c hc
      exact Option.isSome_iff_exists.2 (hreadable c hc).1
    refine ⟨?_, by rw [hall]⟩
    exact (handleChanges_tracks (tracks_self _) hreadable).2

end Event

-- ================================================================= the run

/-- The store after a run of the service from empty. -/
def serviceRun (D : RustDecimal) (service : OrderbookService)
    (msgs : List (NormalizedOrderbook × Int)) : OrderbookStore :=
  msgs.foldl (fun store msg =>
    (service.processMessage D store msg.1 msg.2).1) .new

theorem booksValid_serviceRun (D : RustDecimal)
    (service : OrderbookService)
    (msgs : List (NormalizedOrderbook × Int)) :
    (serviceRun D service msgs).BooksValid := by
  induction msgs using List.reverseRecOn with
  | nil => exact booksValid_new
  | append_singleton msgs msg ih =>
      intro m a ob hob
      unfold serviceRun at ih hob
      rw [List.foldl_append] at hob
      refine ih.apply D msg.1 m a ob ?_
      rw [← hob]
      exact bookAt_congr (books_processMessage ..).symm m a

/-- Whatever store the service has reached and whatever message it
publishes, the cache consumes the event in full exactly when every price
the message lists parses. -/
theorem event_consumed_iff (hD : D.Lawful) (service : OrderbookService)
    (msgs : List (NormalizedOrderbook × Int)) (msg : NormalizedOrderbook)
    (now : Int) (cache : BboCache) :
    ConsumedInFull D cache
        (.ofEvent (publishChange D (serviceRun D service msgs) msg now).2)
      ↔ ∀ e ∈ affectedPrices msg, (D.fromStr e.1).isSome = true :=
  consumedInFull_ofEvent hD (booksValid_serviceRun D service msgs) cache
    now

/-- An unparsable size does not matter, a parsable price does. -/
theorem event_consumed_bad_size :
    let msg := NormalizedOrderbook.deltaOf "polymarket" "m" "t"
      [⟨.buy, "0.4", "many"⟩, ⟨.buy, "0.5", "10"⟩]
    ConsumedInFull fixedPoint .new (.ofEvent (publishChange fixedPoint
      (serviceRun fixedPoint ⟨none, true⟩ [(msg, 1)]) msg 1).2) := by
  intro msg
  refine (event_consumed_iff fixedPoint_lawful ⟨none, true⟩ [(msg, 1)] msg
    1 .new).2 ?_
  decide +kernel

/-- One unparsable price, and the level after it does not reach the
cache, although the store has it and it would be cached without the
other. -/
theorem bad_price_suppresses_level :
    let msg := NormalizedOrderbook.deltaOf "polymarket" "m" "t"
      [⟨.buy, "n/a", "10"⟩, ⟨.buy, "0.5", "10"⟩]
    let store := serviceRun fixedPoint ⟨none, true⟩ [(msg, 1)]
    let event := OrderbookChange.ofEvent
      (publishChange fixedPoint store msg 1).2
    ¬ ConsumedInFull fixedPoint .new event
      ∧ (BboCache.new.handleChange fixedPoint event).2
          = some .decimalParse
      ∧ (store.sizeAt "m" "t" (.buy, 1 / 2) "polymarket").isSome = true
      ∧ (BboCache.new.handleChange fixedPoint event).1.getPlatformBbo
          "m" "t" "polymarket" = some (none, none)
      ∧ (BboCache.new.handleChange fixedPoint
          (event.parsable fixedPoint)).1.getPlatformBbo
            "m" "t" "polymarket" = some (some ⟨5, 1⟩, none) := by
  intro msg store event
  have hhalt : (BboCache.new.handleChange fixedPoint event).2
      = some .decimalParse := by decide +kernel
  refine ⟨fun hfull => ?_, hhalt, by decide +kernel, by decide +kernel,
    by decide +kernel⟩
  rw [hfull.1] at hhalt
  cases hhalt

end Wup.Executor
