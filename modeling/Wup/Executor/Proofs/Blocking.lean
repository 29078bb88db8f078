/-
When the handling of an event blocks itself.

A zero size at the price that is the platform's cached best is meant to
forget the best. The removal waits for the reference the best was read
through, which the same thread holds until after the removal. So the
handling of an event returns exactly when it reads no such size
(`completes_iff`).

The argument is an induction over the sizes of the event in the order
they are read, up to the first text that does not parse. Until it blocks
the handling only adds prices to what a platform has had: a zero size
elsewhere changes nothing. So the best a zero size meets is the best of
what was cached before the event and what the event has quoted before it
(`handleReadings_blocked_iff`), which names no state in between.

The accesses agree: a piece of the handling is stuck where the model says
so, and otherwise drops every reference it takes (`play_forEach`).
-/
import Wup.Executor.Accesses
import Wup.Executor.Proofs.Tracking

namespace Wup.Executor

variable {D : RustDecimal}

-- ============================================================ what is read

/-- A platform's size at a price, as the handling reads it. -/
structure SizeReport where
  side : String
  platform : String
  price : Decimal
  size : Decimal

/-- What is read of a change, size by size; a text that does not parse
reads as `none`. -/
def PriceChange.readings (D : RustDecimal) (c : PriceChange) :
    List (Option SizeReport) :=
  match D.fromStr c.price with
  | none => [none]
  | some price => c.platforms.map fun ps =>
      (D.fromStr ps.size).map fun size => ⟨c.side, ps.platform, price, size⟩

/-- The entries before the first `none`. -/
def untilNone {α : Type} : List (Option α) → List α
  | some a :: as => a :: untilNone as
  | _ => []

/-- The sizes of an event that are read before a text of it does not
parse. -/
def OrderbookChange.sizesRead (D : RustDecimal)
    (change : OrderbookChange) : List SizeReport :=
  untilNone (change.changes.flatMap (·.readings D))

/-- One size, or the text that does not parse. -/
def handleReading (entry : CachedBbo) :
    Option SizeReport → CachedBbo × Option Halt
  | none => (entry, some .decimalParse)
  | some r =>
      if r.side = "buy" then updateBid entry r.price r.platform r.size
      else if r.side = "sell" then
        updateAsk entry r.price r.platform r.size
      else (entry, none)

theorem forEach_map {S ι κ : Type} (step : S → κ → S × Option Halt)
    (f : ι → κ) (s : S) (is : List ι) :
    forEach step s (is.map f) = forEach (fun s i => step s (f i)) s is := by
  induction is generalizing s with
  | nil => rfl
  | cons i is ih =>
      rw [List.map_cons]
      unfold forEach
      split
      · exact ih _
      · rfl

theorem forEach_append {S ι : Type} (step : S → ι → S × Option Halt)
    (s : S) (is js : List ι) :
    forEach step s (is ++ js)
      = match forEach step s is with
        | (s', none) => forEach step s' js
        | (s', some halt) => (s', some halt) := by
  induction is generalizing s with
  | nil => rfl
  | cons i is ih =>
      rw [List.cons_append, forEach, forEach]
      split
      · exact ih _
      · rfl

/-- A loop inside a loop is one loop. -/
theorem forEach_flatMap {S ι κ : Type} (step : S → κ → S × Option Halt)
    (f : ι → List κ) (s : S) (is : List ι) :
    forEach (fun s i => forEach step s (f i)) s is
      = forEach step s (is.flatMap f) := by
  induction is generalizing s with
  | nil => rfl
  | cons i is ih =>
      rw [List.flatMap_cons, forEach_append, forEach]
      rcases forEach step s (f i) with ⟨s', _ | halt⟩
      · exact ih s'
      · rfl

theorem handlePriceChange_eq (entry : CachedBbo) (c : PriceChange) :
    handlePriceChange D entry c
      = forEach handleReading entry (c.readings D) := by
  unfold handlePriceChange PriceChange.readings
  cases D.fromStr c.price with
  | none => rfl
  | some price =>
      simp only [forEach_map]
      congr 1
      funext entry ps
      unfold handlePlatform
      cases D.fromStr ps.size with
      | none => rfl
      | some size => rfl

/-- The handling of an event goes through its readings in order. -/
theorem handleChange_readings (cache : BboCache)
    (change : OrderbookChange) :
    (cache.handleChange D change).2
      = (forEach handleReading
          (cache.entry change.marketId change.assetId)
          (change.changes.flatMap (·.readings D))).2 := by
  have hstep : handlePriceChange D
      = fun entry c => forEach handleReading entry (c.readings D) :=
    funext₂ handlePriceChange_eq
  rw [← forEach_flatMap, ← hstep]
  rfl

-- ======================================================= the best it meets

/-- A size that is not zero quotes its price. -/
def SizeReport.Quotes (r : SizeReport) (side platform : String) (v : ℚ) :
    Prop :=
  r.side = side ∧ r.platform = platform ∧ r.size.isZero = false
    ∧ r.price.val = v

/-- Prices by platform, and those quoted since. -/
def quotedSince (side : String) (prices : String → Set ℚ)
    (reports : List SizeReport) (q : String) : Set ℚ :=
  {v | v ∈ prices q ∨ ∃ r ∈ reports, r.Quotes side q v}

/-- A zero size at the best of the platform's prices on its side. -/
def SizeReport.ZeroAtBest (r : SizeReport)
    (bids asks : String → Set ℚ) : Prop :=
  r.size.isZero = true
    ∧ (r.side = "buy" ∧ IsGreatest (bids r.platform) r.price.val
      ∨ r.side = "sell" ∧ IsLeast (asks r.platform) r.price.val)

section Entry

variable {entry : CachedBbo} {bids asks : String → Set ℚ}

theorem mem_quotedSince_singleton {side : String}
    {prices : String → Set ℚ} {r : SizeReport} {q : String} {v : ℚ} :
    v ∈ quotedSince side prices [r] q
      ↔ v ∈ prices q ∨ r.Quotes side q v := by
  simp [quotedSince]

theorem quotedSince_cons (side : String) (prices : String → Set ℚ)
    (r : SizeReport) (rs : List SizeReport) :
    quotedSince side prices (r :: rs)
      = quotedSince side (quotedSince side prices [r]) rs := by
  funext q
  ext v
  simp [quotedSince, or_assoc]

theorem quotedSince_nil (side : String) (prices : String → Set ℚ) :
    quotedSince side prices [] = prices := by
  funext q
  ext v
  simp [quotedSince]

/-- A bid of zero size blocks at the best, and does nothing elsewhere. -/
theorem updateBid_zero (h : Tracks entry bids asks) (price : Decimal)
    (platform : String) {size : Decimal} (hsize : size.isZero = true) :
    IsGreatest (bids platform) price.val
        ∧ updateBid entry price platform size = (entry, some .blocked)
      ∨ ¬ IsGreatest (bids platform) price.val
        ∧ updateBid entry price platform size = (entry, none) := by
  have hbest := (h platform).1.eq_some_iff (v := price.val)
  unfold updateBid
  rw [if_pos hsize]
  cases hcached : entry.bestBids.lookup platform with
  | none =>
      rw [hcached] at hbest
      exact Or.inr ⟨fun hg => (nomatch hbest.2 hg), rfl⟩
  | some current =>
      rw [hcached, Option.map_some, Option.some.injEq] at hbest
      by_cases hv : current.val = price.val
      · exact Or.inl ⟨hbest.1 hv, if_pos hv⟩
      · exact Or.inr ⟨fun hg => hv (hbest.2 hg), if_neg hv⟩

/-- And so does an ask. -/
theorem updateAsk_zero (h : Tracks entry bids asks) (price : Decimal)
    (platform : String) {size : Decimal} (hsize : size.isZero = true) :
    IsLeast (asks platform) price.val
        ∧ updateAsk entry price platform size = (entry, some .blocked)
      ∨ ¬ IsLeast (asks platform) price.val
        ∧ updateAsk entry price platform size = (entry, none) := by
  have hbest := (h platform).2.eq_some_iff (v := price.val)
  unfold updateAsk
  rw [if_pos hsize]
  cases hcached : entry.bestAsks.lookup platform with
  | none =>
      rw [hcached] at hbest
      exact Or.inr ⟨fun hl => (nomatch hbest.2 hl), rfl⟩
  | some current =>
      rw [hcached, Option.map_some, Option.some.injEq] at hbest
      by_cases hv : current.val = price.val
      · exact Or.inl ⟨hbest.1 hv, if_pos hv⟩
      · exact Or.inr ⟨fun hl => hv (hbest.2 hl), if_neg hv⟩

/-- A zero size at the best blocks. -/
theorem handleReading_zeroAtBest (h : Tracks entry bids asks)
    {r : SizeReport} (hr : r.ZeroAtBest bids asks) :
    handleReading entry (some r) = (entry, some .blocked) := by
  obtain ⟨hzero, ⟨hside, hbest⟩ | ⟨hside, hbest⟩⟩ := hr
  · rcases updateBid_zero h r.price r.platform hzero with ⟨-, he⟩ | ⟨hn, -⟩
    · simpa [handleReading, hside] using he
    · exact absurd hbest hn
  · rcases updateAsk_zero h r.price r.platform hzero with ⟨-, he⟩ | ⟨hn, -⟩
    · simpa [handleReading, hside] using he
    · exact absurd hbest hn

/-- A zero size elsewhere does nothing. -/
theorem handleReading_zeroElsewhere (h : Tracks entry bids asks)
    {r : SizeReport} (hzero : r.size.isZero = true)
    (hr : ¬ r.ZeroAtBest bids asks) :
    handleReading entry (some r) = (entry, none) := by
  unfold handleReading
  simp only
  split
  · next hside =>
      rcases updateBid_zero h r.price r.platform hzero with
        ⟨hbest, -⟩ | ⟨-, he⟩
      · exact absurd ⟨hzero, Or.inl ⟨hside, hbest⟩⟩ hr
      · exact he
  · split
    · next hside =>
        rcases updateAsk_zero h r.price r.platform hzero with
          ⟨hbest, -⟩ | ⟨-, he⟩
        · exact absurd ⟨hzero, Or.inr ⟨hside, hbest⟩⟩ hr
        · exact he
    · rfl

/-- A size that is not zero adds the price it quotes. -/
theorem handleReading_quotes (h : Tracks entry bids asks)
    {r : SizeReport} (hzero : r.size.isZero = false) :
    Tracks (handleReading entry (some r)).1 (quotedSince "buy" bids [r])
        (quotedSince "sell" asks [r])
      ∧ (handleReading entry (some r)).2 = none := by
  have hquotes : ∀ side q v, r.Quotes side q v
      ↔ r.side = side ∧ v = r.price.val ∧ q = r.platform := by
    simp [SizeReport.Quotes, hzero, eq_comm, and_comm]
  unfold handleReading
  simp only
  split
  · next hside =>
      obtain ⟨ht, hhalt⟩ := updateBid_tracks h r.price r.platform hzero
      refine ⟨ht.congr (fun q v => ?_) fun q v => ?_, hhalt⟩
      · simp [mem_quotedSince_singleton, hquotes, hside]
      · simp [mem_quotedSince_singleton, hquotes, hside]
  · next hbuy =>
      split
      · next hside =>
          obtain ⟨ht, hhalt⟩ := updateAsk_tracks h r.price r.platform hzero
          refine ⟨ht.congr (fun q v => ?_) fun q v => ?_, hhalt⟩
          · simp [mem_quotedSince_singleton, hquotes, hside]
          · simp [mem_quotedSince_singleton, hquotes, hside]
      · next hsell =>
          refine ⟨h.congr (fun q v => ?_) fun q v => ?_, rfl⟩
          · simp [mem_quotedSince_singleton, hquotes, hbuy]
          · simp [mem_quotedSince_singleton, hquotes, hsell]

/-- Unless it blocks, a size is handled, and what it quotes is added. -/
theorem handleReading_tracks (h : Tracks entry bids asks)
    {r : SizeReport} (hr : ¬ r.ZeroAtBest bids asks) :
    ∃ entry', handleReading entry (some r) = (entry', none)
      ∧ Tracks entry' (quotedSince "buy" bids [r])
          (quotedSince "sell" asks [r]) := by
  cases hzero : r.size.isZero with
  | true =>
      have hquotes : ∀ side q v, ¬ r.Quotes side q v := by
        intro side q v hq
        rw [hq.2.2.1] at hzero
        cases hzero
      refine ⟨entry, handleReading_zeroElsewhere h hzero hr,
        h.congr (fun q v => ?_) fun q v => ?_⟩
      · simp [mem_quotedSince_singleton, hquotes]
      · simp [mem_quotedSince_singleton, hquotes]
  | false =>
      obtain ⟨ht, hhalt⟩ := handleReading_quotes h hzero
      exact ⟨_, Prod.ext rfl hhalt, ht⟩

/-- The handling blocks at the first zero size it reads at the best of
what was cached and what is quoted before it. -/
theorem handleReadings_blocked_iff (h : Tracks entry bids asks)
    {readings : List (Option SizeReport)} :
    (forEach handleReading entry readings).2 = some .blocked
      ↔ ∃ before r after, untilNone readings = before ++ r :: after
          ∧ r.ZeroAtBest (quotedSince "buy" bids before)
              (quotedSince "sell" asks before) := by
  induction readings generalizing entry bids asks with
  | nil => simp [forEach, untilNone]
  | cons reading readings ih =>
      cases reading with
      | none => simp [forEach, untilNone, handleReading]
      | some r =>
          rw [untilNone, forEach]
          by_cases hr : r.ZeroAtBest bids asks
          · rw [handleReading_zeroAtBest h hr]
            refine ⟨fun _ => ⟨[], r, untilNone readings, rfl, ?_⟩,
              fun _ => rfl⟩
            rwa [quotedSince_nil, quotedSince_nil]
          · obtain ⟨entry', he, ht⟩ := handleReading_tracks h hr
            rw [he]
            simp only
            rw [ih ht]
            refine ⟨fun hat => ?_, fun hat => ?_⟩
            · obtain ⟨before, r', after, hsplit, hzero⟩ := hat
              refine ⟨r :: before, r', after, by rw [hsplit]; rfl, ?_⟩
              rwa [quotedSince_cons "buy" bids r before,
                quotedSince_cons "sell" asks r before]
            · obtain ⟨before, r', after, hsplit, hzero⟩ := hat
              cases before with
              | nil =>
                  obtain ⟨rfl, -⟩ := List.cons.inj hsplit
                  rw [quotedSince_nil, quotedSince_nil] at hzero
                  exact absurd hzero hr
              | cons r'' before =>
                  obtain ⟨rfl, hrest⟩ := List.cons.inj hsplit
                  rw [quotedSince_cons "buy" bids r before,
                    quotedSince_cons "sell" asks r before] at hzero
                  exact ⟨before, r', after, hrest, hzero⟩

end Entry

-- ============================================================ the accesses

/-- What a piece of the handling does to the references held: it is stuck
if it blocks, and drops all it takes if not. -/
def stuckOr (held : CacheMap → Nat) (halt : Option Halt) :
    Option (CacheMap → Nat) :=
  if halt = some .blocked then none else some held

section Accesses

variable {held : CacheMap → Nat}

/-- A removal is stuck exactly at the best. -/
theorem play_removal {map : CacheMap} (hmap : held map = 0)
    (current : Option Decimal) (price : Decimal) :
    Access.play held (removalAccesses map current price)
      = stuckOr held (match current with
          | some currentBest =>
              if currentBest.val = price.val then some .blocked else none
          | none => none) := by
  unfold removalAccesses stuckOr
  cases current with
  | none => rfl
  | some currentBest =>
      simp only
      split
      · simp [Access.perform]
      · have hback : Function.update held map 0 = held :=
          hmap ▸ Function.update_eq_self map held
        simp [Access.perform, hmap, hback]

theorem play_updateBid (hbids : held .bestBids = 0) (entry : CachedBbo)
    (price : Decimal) (platform : String) (size : Decimal) :
    Access.play held (updateBidAccesses entry price platform size)
      = stuckOr held (updateBid entry price platform size).2 := by
  unfold updateBidAccesses updateBid
  split
  · rw [play_removal hbids]
    cases entry.bestBids.lookup platform with
    | none => rfl
    | some currentBest =>
        simp only
        split
        · rfl
        · rfl
  · simp [Access.perform, hbids, stuckOr]

theorem play_updateAsk (hasks : held .bestAsks = 0) (entry : CachedBbo)
    (price : Decimal) (platform : String) (size : Decimal) :
    Access.play held (updateAskAccesses entry price platform size)
      = stuckOr held (updateAsk entry price platform size).2 := by
  unfold updateAskAccesses updateAsk
  split
  · rw [play_removal hasks]
    cases entry.bestAsks.lookup platform with
    | none => rfl
    | some currentBest =>
        simp only
        split
        · rfl
        · rfl
  · simp [Access.perform, hasks, stuckOr]

/-- A loop of such pieces is one. -/
theorem play_forEach {S ι : Type} {step : S → ι → S × Option Halt}
    {accesses : S → ι → List (Access CacheMap)}
    (hstep : ∀ s i, Access.play held (accesses s i)
      = stuckOr held (step s i).2) (s : S) (is : List ι) :
    Access.play held (forEachAccesses step accesses s is)
      = stuckOr held (forEach step s is).2 := by
  induction is generalizing s with
  | nil => rfl
  | cons i is ih =>
      rw [forEachAccesses, forEach, Access.play_append, hstep]
      rcases step s i with ⟨s', _ | halt⟩
      · exact ih s'
      · cases halt with
        | decimalParse => rfl
        | blocked => rfl

theorem play_platform (hbids : held .bestBids = 0)
    (hasks : held .bestAsks = 0) (side : String) (price : Decimal)
    (entry : CachedBbo) (ps : PlatformSize) :
    Access.play held (platformAccesses D side price entry ps)
      = stuckOr held (handlePlatform D side price entry ps).2 := by
  unfold platformAccesses handlePlatform
  cases D.fromStr ps.size with
  | none => rfl
  | some size =>
      simp only
      split
      · exact play_updateBid hbids ..
      · split
        · exact play_updateAsk hasks ..
        · rfl

theorem play_priceChange (hbids : held .bestBids = 0)
    (hasks : held .bestAsks = 0) (entry : CachedBbo) (c : PriceChange) :
    Access.play held (priceChangeAccesses D entry c)
      = stuckOr held (handlePriceChange D entry c).2 := by
  unfold priceChangeAccesses handlePriceChange
  cases D.fromStr c.price with
  | none => rfl
  | some price =>
      exact play_forEach (play_platform hbids hasks c.side price) ..

end Accesses

/-- The handling of an event writes under a reference of its own exactly
when it blocks. -/
theorem writesUnderGuard_handleChange (cache : BboCache)
    (change : OrderbookChange) :
    Access.WritesUnderGuard (cache.accesses D change)
      ↔ (cache.handleChange D change).2 = some .blocked := by
  -- the loop runs under the reference to the outer entry
  let held : CacheMap → Nat := Function.update Access.noGuards .cache 1
  have hloop : Access.play held
      (forEachAccesses (handlePriceChange D) (priceChangeAccesses D)
        (cache.entry change.marketId change.assetId) change.changes)
      = stuckOr held (cache.handleChange D change).2 :=
    play_forEach (play_priceChange rfl rfl) _ change.changes
  rw [Access.writesUnderGuard_iff]
  unfold BboCache.accesses
  rw [Access.play_cons]
  show Access.play Access.noGuards _ = none ↔ _
  rw [Access.play_guarded]
  show (Access.play held _).bind _ = none ↔ _
  rw [hloop]
  unfold stuckOr
  split
  · next h => exact iff_of_true rfl h
  · next h => exact iff_of_false (by simp) h

-- =============================================================== the event

/-- The prices a platform's best of an entry stands for: the best, if
there is one. -/
def cachedPrices (best : HashMap String Decimal) (q : String) : Set ℚ :=
  {v | (best.lookup q).map Decimal.val = some v}

/-- An event reads a zero size at a platform's best: at the greatest
(asks: the least) of the price cached for the platform before the event
and the prices the event quotes for it before that size. -/
def ZeroesBest (D : RustDecimal) (cache : BboCache)
    (change : OrderbookChange) : Prop :=
  let entry := cache.entry change.marketId change.assetId
  ∃ before r after, change.sizesRead D = before ++ r :: after
    ∧ r.ZeroAtBest
        (quotedSince "buy" (cachedPrices entry.bestBids) before)
        (quotedSince "sell" (cachedPrices entry.bestAsks) before)

/-- For every cache and every event, the handling returns, and no access
of it writes to a map under a reference it holds into the map, exactly
when the event reads no zero size at a platform's best. -/
theorem completes_iff (D : RustDecimal) (cache : BboCache)
    (change : OrderbookChange) :
    ((cache.handleChange D change).2 ≠ some .blocked
        ∧ ¬ Access.WritesUnderGuard (cache.accesses D change))
      ↔ ¬ ZeroesBest D cache change := by
  have hblocked : (cache.handleChange D change).2 = some .blocked
      ↔ ZeroesBest D cache change := by
    rw [handleChange_readings]
    exact handleReadings_blocked_iff
      (tracks_self (cache.entry change.marketId change.assetId))
  rw [writesUnderGuard_handleChange, ne_eq, hblocked, and_self]

/-- A platform's best bid goes to zero: the event before it is handled,
the event itself is not. -/
theorem zeroed_best_blocks :
    let quote (size : String) : OrderbookChange :=
      ⟨"m", "a", [⟨"buy", "0.5", [⟨"polymarket", size⟩]⟩]⟩
    let cache := (BboCache.new.handleChange fixedPoint (quote "10")).1
    (BboCache.new.handleChange fixedPoint (quote "10")).2 = none
      ∧ ¬ ((cache.handleChange fixedPoint (quote "0")).2 ≠ some .blocked
        ∧ ¬ Access.WritesUnderGuard
          (cache.accesses fixedPoint (quote "0"))) := by
  intro quote cache
  refine ⟨by decide +kernel, fun h => h.1 ?_⟩
  decide +kernel

end Wup.Executor
