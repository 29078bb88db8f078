/-
How far the BBO cache tracks the book.

`Tracks` says of an entry that each platform's cached best is the best of
a given set of prices. An event whose texts parse and whose sizes are not
zero never ends early and adds to each set the prices it reports
(`forEach_tracks`, one loop inside the other). What the publisher reports
for a platform is what the platform quotes at the listed keys after the
message, and at the unlisted keys it quotes nothing new, so a cached best
is the best of all the platform ever quoted (`tracks_followRun`).

The cache would give up a best at a size of zero, and no zero ever reaches
it: the publisher leaves a platform out of a level as soon as its size is
zero. So a best that is taken away stays cached (`best_bid_outlives_level`),
and the cache is right exactly when the platform quotes as well as it ever
did (`bbo_tracks_book_iff`).
-/
import Wup.Executor.BboCache
import Wup.Orderbook.Proofs.Replication
import Wup.Orderbook.Proofs.Invariant

namespace Wup.Executor

variable {D : RustDecimal}

-- =============================================================== one entry

/-- Each platform's cached best is the best of its prices. -/
def Tracks (entry : CachedBbo) (bids asks : String → Set ℚ) : Prop :=
  ∀ q, MaxOf (bids q) ((entry.bestBids.lookup q).map Decimal.val)
    ∧ MinOf (asks q) ((entry.bestAsks.lookup q).map Decimal.val)

theorem Tracks.congr {entry : CachedBbo}
    {bids bids' asks asks' : String → Set ℚ} (h : Tracks entry bids asks)
    (hb : ∀ q v, v ∈ bids q ↔ v ∈ bids' q)
    (ha : ∀ q v, v ∈ asks q ↔ v ∈ asks' q) : Tracks entry bids' asks' :=
  fun q => ⟨(h q).1.congr (hb q), (h q).2.congr (ha q)⟩

/-- Any entry is the record of its own prices. -/
theorem tracks_self (entry : CachedBbo) :
    Tracks entry
      (fun q => {v | (entry.bestBids.lookup q).map Decimal.val = some v})
      fun q => {v | (entry.bestAsks.lookup q).map Decimal.val = some v} :=
  fun _ => ⟨maxOf_self _, minOf_self _⟩

section Entry

variable {entry : CachedBbo} {bids asks : String → Set ℚ}

/-- A size at a bid price adds the price to the platform's. -/
theorem updateBid_tracks (h : Tracks entry bids asks) (price : Decimal)
    (platform : String) {size : Decimal} (hsize : size.isZero = false) :
    Tracks (updateBid entry price platform size).1
        (fun q => {v | v ∈ bids q ∨ v = price.val ∧ q = platform}) asks
      ∧ (updateBid entry price platform size).2 = none := by
  unfold updateBid
  rw [hsize]
  refine ⟨fun q => ⟨?_, (h q).2⟩, rfl⟩
  simp only [Bool.false_eq_true, if_false, HashMap.lookup_upsert]
  by_cases hq : q = platform
  · subst hq
    rw [if_pos rfl, Option.map_some]
    have hraise := (h q).1.raise price.val
    cases hcached : entry.bestBids.lookup q with
    | none =>
        rw [hcached] at hraise
        exact hraise.congr fun v => by simp [or_comm]
    | some current =>
        rw [hcached, Option.map_some, Wup.raise] at hraise
        simp only
        rw [apply_ite Decimal.val]
        exact hraise.congr fun v => by simp [or_comm]
  · rw [if_neg hq]
    exact (h q).1.congr fun v => by simp [hq]

/-- A size at an ask price adds the price to the platform's. -/
theorem updateAsk_tracks (h : Tracks entry bids asks) (price : Decimal)
    (platform : String) {size : Decimal} (hsize : size.isZero = false) :
    Tracks (updateAsk entry price platform size).1 bids
        (fun q => {v | v ∈ asks q ∨ v = price.val ∧ q = platform})
      ∧ (updateAsk entry price platform size).2 = none := by
  unfold updateAsk
  rw [hsize]
  refine ⟨fun q => ⟨(h q).1, ?_⟩, rfl⟩
  simp only [Bool.false_eq_true, if_false, HashMap.lookup_upsert]
  by_cases hq : q = platform
  · subst hq
    rw [if_pos rfl, Option.map_some]
    have hlower := (h q).2.lower price.val
    cases hcached : entry.bestAsks.lookup q with
    | none =>
        rw [hcached] at hlower
        exact hlower.congr fun v => by simp [or_comm]
    | some current =>
        rw [hcached, Option.map_some, Wup.lower] at hlower
        simp only
        rw [apply_ite Decimal.val]
        exact hlower.congr fun v => by simp [or_comm]
  · rw [if_neg hq]
    exact (h q).2.congr fun v => by simp [hq]

/-- A loop whose every step adds its own prices adds them all. -/
theorem forEach_tracks {ι : Type}
    {step : CachedBbo → ι → CachedBbo × Option Halt}
    {f g : ι → String → Set ℚ} {is : List ι}
    (hstep : ∀ entry bids asks, ∀ i ∈ is, Tracks entry bids asks →
      Tracks (step entry i).1 (fun q => {v | v ∈ bids q ∨ v ∈ f i q})
          (fun q => {v | v ∈ asks q ∨ v ∈ g i q})
        ∧ (step entry i).2 = none)
    (h : Tracks entry bids asks) :
    Tracks (forEach step entry is).1
        (fun q => {v | v ∈ bids q ∨ ∃ i ∈ is, v ∈ f i q})
        (fun q => {v | v ∈ asks q ∨ ∃ i ∈ is, v ∈ g i q})
      ∧ (forEach step entry is).2 = none := by
  induction is generalizing entry bids asks with
  | nil => exact ⟨h.congr (by simp) (by simp), rfl⟩
  | cons i is ih =>
      obtain ⟨hone, hhalt⟩ := hstep entry bids asks i
        (List.mem_cons_self ..) h
      have hrest := ih (fun e b a j hj =>
        hstep e b a j (List.mem_cons_of_mem _ hj)) hone
      unfold forEach
      have hpair : step entry i = ((step entry i).1, none) :=
        Prod.ext rfl hhalt
      rw [hpair]
      exact ⟨hrest.1.congr (by simp [or_assoc]) (by simp [or_assoc]),
        hrest.2⟩

/-- A platform entry whose size parses and is not zero. -/
def PlatformSize.Readable (D : RustDecimal) (ps : PlatformSize) : Prop :=
  ∃ size, D.fromStr ps.size = some size ∧ size.isZero = false

theorem handlePlatform_tracks (h : Tracks entry bids asks)
    (side : String) (price : Decimal) {ps : PlatformSize}
    (hps : ps.Readable D) :
    Tracks (handlePlatform D side price entry ps).1
        (fun q => {v | v ∈ bids q ∨ side = "buy" ∧ v = price.val
          ∧ q = ps.platform})
        (fun q => {v | v ∈ asks q ∨ side = "sell" ∧ v = price.val
          ∧ q = ps.platform})
      ∧ (handlePlatform D side price entry ps).2 = none := by
  obtain ⟨size, hsize, hzero⟩ := hps
  unfold handlePlatform
  rw [hsize]
  by_cases hbuy : side = "buy"
  · subst hbuy
    obtain ⟨ht, hhalt⟩ := updateBid_tracks h price ps.platform hzero
    simp only [if_true]
    exact ⟨ht.congr (by simp) (by simp), hhalt⟩
  · by_cases hsell : side = "sell"
    · subst hsell
      obtain ⟨ht, hhalt⟩ := updateAsk_tracks h price ps.platform hzero
      simp only [hbuy, if_false, if_true]
      exact ⟨ht.congr (by simp) (by simp), hhalt⟩
    · simp only [hbuy, hsell, if_false]
      exact ⟨h.congr (by simp) (by simp), trivial⟩

/-- A change whose price and sizes parse, none of them zero. -/
def PriceChange.Readable (D : RustDecimal) (c : PriceChange) : Prop :=
  (∃ price, D.fromStr c.price = some price)
    ∧ ∀ ps ∈ c.platforms, ps.Readable D

/-- The prices a change reports for a platform on a side. -/
def PriceChange.reports (D : RustDecimal) (side : String)
    (c : PriceChange) (q : String) : Set ℚ :=
  {v | c.side = side ∧ D.num c.price = some v
    ∧ q ∈ c.platforms.map (·.platform)}

theorem handlePriceChange_tracks (h : Tracks entry bids asks)
    {c : PriceChange} (hc : c.Readable D) :
    Tracks (handlePriceChange D entry c).1
        (fun q => {v | v ∈ bids q ∨ v ∈ c.reports D "buy" q})
        (fun q => {v | v ∈ asks q ∨ v ∈ c.reports D "sell" q})
      ∧ (handlePriceChange D entry c).2 = none := by
  obtain ⟨⟨price, hprice⟩, hsizes⟩ := hc
  have hloop := forEach_tracks
    (f := fun ps q => {v | c.side = "buy" ∧ v = price.val
      ∧ q = ps.platform})
    (g := fun ps q => {v | c.side = "sell" ∧ v = price.val
      ∧ q = ps.platform})
    (fun entry bids asks ps hps h =>
      handlePlatform_tracks h c.side price (hsizes ps hps)) h
  have hmem : ∀ (name : String) (q : String) (v : ℚ),
      (∃ ps ∈ c.platforms, c.side = name ∧ v = price.val
        ∧ q = ps.platform) ↔ v ∈ c.reports D name q := by
    intro name q v
    unfold PriceChange.reports RustDecimal.num
    rw [hprice]
    simp only [Option.map_some, Option.some.injEq, List.mem_map,
      Set.mem_ofPred_eq]
    refine ⟨fun hv => ?_, fun hv => ?_⟩
    · obtain ⟨ps, hps, hside, rfl, rfl⟩ := hv
      exact ⟨hside, rfl, ps, hps, rfl⟩
    · obtain ⟨hside, rfl, ps, hps, rfl⟩ := hv
      exact ⟨ps, hps, hside, rfl, rfl⟩
  unfold handlePriceChange
  rw [hprice]
  exact ⟨hloop.1.congr (fun q v => or_congr_right (hmem "buy" q v))
    (fun q v => or_congr_right (hmem "sell" q v)), hloop.2⟩

/-- An event of readable changes is handled to its end, and adds to every
platform's prices what it reports. -/
theorem handleChanges_tracks (h : Tracks entry bids asks)
    {cs : List PriceChange} (hcs : ∀ c ∈ cs, c.Readable D) :
    Tracks (forEach (handlePriceChange D) entry cs).1
        (fun q => {v | v ∈ bids q ∨ ∃ c ∈ cs, v ∈ c.reports D "buy" q})
        (fun q => {v | v ∈ asks q ∨ ∃ c ∈ cs, v ∈ c.reports D "sell" q})
      ∧ (forEach (handlePriceChange D) entry cs).2 = none :=
  forEach_tracks
    (fun _ _ _ c hc h => handlePriceChange_tracks h (hcs c hc)) h

end Entry

-- ======================================================= what is published

/-- The prices a platform quotes on a side of an asset's book. -/
def quotedBy (store : OrderbookStore) (m a : String) (side : OrderSide)
    (q : String) : Set ℚ :=
  {p | (store.sizeAt m a (side, p) q).isSome = true}

section Published

variable {store : OrderbookStore}

/-- A size is stored at a key exactly when the aggregated book shows
one. -/
theorem isSome_sizeAt (store : OrderbookStore) (m a : String)
    (k : LevelKey) (q : String) :
    (store.sizeAt m a k q).isSome
      = ((store.aggregated m a k).bind fun l => l.sizes q).isSome := by
  unfold OrderbookStore.sizeAt OrderbookStore.aggregated
  cases store.levelAt m a k with
  | none => rfl
  | some ps =>
      simp only [Option.bind_some, PlatformSizes.aggregated]
      cases he : ps.isEmpty with
      | true => simp [PlatformSizes.isEmpty_iff.1 he q]
      | false => simp

/-- No stored size is zero. -/
theorem sizeAt_nonzero (h : store.BooksValid) {m a q : String}
    {k : LevelKey} {size : Decimal}
    (hsize : store.sizeAt m a k q = some size) : size.isZero = false := by
  unfold OrderbookStore.sizeAt OrderbookStore.levelAt at hsize
  cases hob : store.bookAt m a with
  | none => rw [hob] at hsize; cases hsize
  | some ob =>
      rw [hob, Option.bind_some] at hsize
      obtain ⟨s, p⟩ := k
      cases s with
      | buy => exact (h m a ob hob).nonzero .buy p q size hsize
      | sell => exact (h m a ob hob).nonzero .sell p q size hsize

/-- The platforms of a published level are those that quote it. -/
theorem mem_platforms_ofChange (ps : PlatformSizes) (price total q : String)
    (side : OrderSide) :
    q ∈ (PriceChange.ofChange ⟨price, side, total,
        ps.iter.map fun e => ⟨e.1, D.toString e.2⟩⟩).platforms.map
          (·.platform)
      ↔ (ps.get q).isSome = true := by
  unfold PriceChange.ofChange
  rw [List.map_map, List.map_map, List.mem_map, Option.isSome_iff_exists]
  refine ⟨fun hq => ?_, fun hq => ?_⟩
  · obtain ⟨e, he, rfl⟩ := hq
    exact ⟨e.2, PlatformSizes.mem_iter.1 he⟩
  · obtain ⟨size, hsize⟩ := hq
    exact ⟨(q, size), PlatformSizes.mem_iter.2 hsize, rfl⟩

/-- A published change is readable when its listed price parses, and
reports for a platform what it quotes at the listed key. -/
theorem published_change (hD : D.Lawful) (h : store.BooksValid)
    (m a t : String) (side : OrderSide) {p : ℚ} (hp : D.num t = some p) :
    (PriceChange.ofChange
        (levelChange D store m a (t, side))).Readable D
      ∧ ∀ (name : OrderSide) q v,
        v ∈ (PriceChange.ofChange
            (levelChange D store m a (t, side))).reports D name.json q
          ↔ side = name ∧ v = p ∧ v ∈ quotedBy store m a name q := by
  rcases levelChange_cases D store m a t side with
    ⟨d, ps, hd, hps, -, hc⟩ | ⟨hgone, hc⟩
  · -- a level that stands: its platforms, with their sizes
    have hval : d.val = p := by
      rw [RustDecimal.num, hd] at hp
      exact Option.some.inj hp
    have hat : ∀ q, store.sizeAt m a (side, p) q = ps.get q := by
      intro q
      unfold OrderbookStore.sizeAt
      rw [← hval, hps, Option.bind_some]
    rw [hc]
    refine ⟨⟨⟨d, hD.fromStr_toString d⟩, ?_⟩, fun name q v => ?_⟩
    · intro e he
      obtain ⟨e', he', rfl⟩ := List.mem_map.1 he
      obtain ⟨e'', he'', rfl⟩ := List.mem_map.1 he'
      refine ⟨e''.2, hD.fromStr_toString _, ?_⟩
      exact sizeAt_nonzero h
        ((hat e''.1).trans (PlatformSizes.mem_iter.1 he''))
    · unfold PriceChange.reports quotedBy
      simp only [Set.mem_ofPred_eq, mem_platforms_ofChange]
      show side.json = name.json ∧ D.num (D.toString d) = some v ∧ _ ↔ _
      rw [OrderSide.json_inj, hD.num_toString, hval, Option.some.injEq,
        eq_comm (a := p)]
      refine and_congr_right fun hs => and_congr_right fun hv => ?_
      rw [← hs, hv, hat]
  · -- a removal: nobody on the list, and nobody quotes there
    rw [hc]
    refine ⟨⟨?_, fun e he => absurd he (List.not_mem_nil)⟩,
      fun name q v => ?_⟩
    · obtain ⟨d, hd, -⟩ := Option.map_eq_some_iff.1 hp
      exact ⟨d, hd⟩
    · have hnone : ∀ q, ¬ (store.sizeAt m a (side, p) q).isSome = true := by
        intro q
        rw [isSome_sizeAt, hgone p hp]
        exact Bool.false_ne_true
      refine ⟨fun hv => ?_, fun hv => ?_⟩
      · exact absurd hv.2.2 List.not_mem_nil
      · obtain ⟨rfl, rfl, hq⟩ := hv
        exact absurd hq (hnone q)

end Published

-- ================================================================ one step

/-- A delta all of whose prices and sizes parse. -/
def ParsableDelta (D : RustDecimal) (msg : NormalizedOrderbook) : Prop :=
  msg.messageType = .delta
    ∧ ∀ u ∈ msg.updates.getD [],
      (∃ p, D.num u.price = some p) ∧ ∃ size, D.num u.size = some size

section Step

variable {store : OrderbookStore} {msg : NormalizedOrderbook}

/-- An event has a change for each listed price. -/
theorem changes_ofEvent (store : OrderbookStore)
    (msg : NormalizedOrderbook) (now : Int) :
    (OrderbookChange.ofEvent (publishChange D store msg now).2).changes
      = (affectedPrices msg).map fun e => .ofChange
          (levelChange D store msg.marketId msg.clobTokenId e) := by
  unfold OrderbookChange.ofEvent publishChange
  rw [List.map_map]
  rfl

/-- What an event reports for a platform: what it quotes at the listed
keys. -/
theorem reports_ofEvent (hD : D.Lawful) (h : store.BooksValid)
    (hmsg : ParsableDelta D msg) (now : Int) :
    (∀ c ∈ (OrderbookChange.ofEvent
        (publishChange D store msg now).2).changes, c.Readable D)
      ∧ ∀ (side : OrderSide) q v,
        (∃ c ∈ (OrderbookChange.ofEvent
            (publishChange D store msg now).2).changes,
          v ∈ c.reports D side.json q)
        ↔ v ∈ quotedBy store msg.marketId msg.clobTokenId side q
            ∩ {v | (side, v) ∈ listedKeys D msg} := by
  have hnum : ∀ e ∈ affectedPrices msg, ∃ p, D.num e.1 = some p := by
    intro e he
    rw [affectedPrices, hmsg.1] at he
    obtain ⟨u, hu, rfl⟩ := List.mem_map.1 he
    exact (hmsg.2 u hu).1
  rw [changes_ofEvent]
  refine ⟨fun c hc => ?_, fun side q v => ?_⟩
  · obtain ⟨⟨t, s⟩, he, rfl⟩ := List.mem_map.1 hc
    obtain ⟨p, hp⟩ := hnum _ he
    exact (published_change hD h _ _ t s hp).1
  · refine ⟨fun hv => ?_, fun hv => ?_⟩
    · obtain ⟨c, hc, hv⟩ := hv
      obtain ⟨⟨t, s⟩, he, rfl⟩ := List.mem_map.1 hc
      obtain ⟨p, hp⟩ := hnum _ he
      obtain ⟨rfl, rfl, hq⟩ :=
        ((published_change hD h _ _ t s hp).2 side q v).1 hv
      exact ⟨hq, mem_listedKeys.2 ⟨t, he, hp⟩⟩
    · obtain ⟨hq, hlist⟩ := hv
      obtain ⟨t, he, hp⟩ := mem_listedKeys.1 hlist
      exact ⟨_, List.mem_map_of_mem he,
        ((published_change hD h _ _ t side hp).2 side q v).2
          ⟨rfl, rfl, hq⟩⟩

/-- A delta moves a platform's quotes at the keys it lists only. -/
theorem quotedBy_apply_of_notMem (hmsg : msg.messageType = .delta)
    {side : OrderSide} {v : ℚ} (hv : (side, v) ∉ listedKeys D msg)
    (q : String) :
    v ∈ quotedBy (store.apply D msg) msg.marketId msg.clobTokenId side q
      ↔ v ∈ quotedBy store msg.marketId msg.clobTokenId side q := by
  have hsame : store.aggregated msg.marketId msg.clobTokenId (side, v)
      = (store.apply D msg).aggregated msg.marketId msg.clobTokenId
          (side, v) := by
    by_contra hne
    exact hv (covers_delta store hmsg hne)
  unfold quotedBy
  rw [Set.mem_ofPred_eq, Set.mem_ofPred_eq, isSome_sizeAt, isSome_sizeAt,
    hsame]

/-- Messages of other assets do not move what is quoted. -/
theorem quotedBy_apply_of_ne {m a : String} (h : msg.key ≠ (m, a)) :
    quotedBy (store.apply D msg) m a = quotedBy store m a := by
  funext side q
  unfold quotedBy OrderbookStore.sizeAt OrderbookStore.levelAt
  rw [OrderbookStore.bookAt_apply, if_neg h]

/-- The entry of an asset in the cache. -/
def BboCache.entryAt (cache : BboCache) (m a : String) : CachedBbo :=
  (cache.cache.lookup (m, a)).getD .default

/-- An event is handled in the entry of its asset. -/
theorem BboCache.entryAt_handleChange (cache : BboCache)
    (change : OrderbookChange) (m a : String) :
    (cache.handleChange D change).1.entryAt m a
      = if (m, a) = (change.marketId, change.assetId) then
          (forEach (handlePriceChange D)
            (cache.entryAt change.marketId change.assetId)
              change.changes).1
        else cache.entryAt m a := by
  unfold entryAt handleChange
  rw [HashMap.lookup_insert']
  split <;> rfl

/-- Handling the event of a parsable delta is not cut short, and adds to
the tracked prices of its asset what is quoted now at the listed keys. -/
theorem handleChange_tracks (hD : D.Lawful) (h : store.BooksValid)
    (hmsg : ParsableDelta D msg) {cache : BboCache}
    {bids asks : String → Set ℚ}
    (hcache : Tracks (cache.entryAt msg.marketId msg.clobTokenId) bids
      asks) (now : Int) :
    Tracks ((cache.handleChange D (.ofEvent
          (publishChange D store msg now).2)).1.entryAt msg.marketId
            msg.clobTokenId)
        (fun q => bids q ∪ quotedBy store msg.marketId msg.clobTokenId
          .buy q ∩ {v | (.buy, v) ∈ listedKeys D msg})
        (fun q => asks q ∪ quotedBy store msg.marketId msg.clobTokenId
          .sell q ∩ {v | (.sell, v) ∈ listedKeys D msg})
      ∧ (cache.handleChange D (.ofEvent
          (publishChange D store msg now).2)).2 = none := by
  obtain ⟨hreadable, hreports⟩ := reports_ofEvent hD h hmsg now
  obtain ⟨htracks, hhalt⟩ := handleChanges_tracks hcache hreadable
  refine ⟨?_, hhalt⟩
  have hown : (msg.marketId, msg.clobTokenId)
      = ((OrderbookChange.ofEvent
            (publishChange D store msg now).2).marketId,
          (OrderbookChange.ofEvent
            (publishChange D store msg now).2).assetId) := rfl
  rw [BboCache.entryAt_handleChange, if_pos hown]
  exact htracks.congr (fun q v => or_congr_right (hreports .buy q v))
    (fun q v => or_congr_right (hreports .sell q v))

/-- The entries of other assets stay. -/
theorem entryAt_handleChange_of_ne {m a : String} (h : msg.key ≠ (m, a))
    (cache : BboCache) (now : Int) :
    (cache.handleChange D (.ofEvent
      (publishChange D store msg now).2)).1.entryAt m a
        = cache.entryAt m a := by
  rw [BboCache.entryAt_handleChange, if_neg]
  exact fun he => h he.symm

end Step

-- ================================================================= the run

/-- Process a message and hand the published event to the cache. -/
def follow (D : RustDecimal) (service : OrderbookService)
    (s : OrderbookStore × BboCache) (msg : NormalizedOrderbook × Int) :
    OrderbookStore × BboCache :=
  let r := service.processMessage D s.1 msg.1 msg.2
  (r.1,
    match r.2 with
    | some (_, event) => (s.2.handleChange D (.ofEvent event)).1
    | none => s.2)

/-- The store and the cache after a run from empty. -/
def followRun (D : RustDecimal) (service : OrderbookService)
    (msgs : List (NormalizedOrderbook × Int)) :
    OrderbookStore × BboCache :=
  msgs.foldl (follow D service) (.new, .new)

variable {service : OrderbookService}

theorem bookAt_congr {store store' : OrderbookStore}
    (h : store.books = store'.books) (m a : String) :
    store.bookAt m a = store'.bookAt m a := by
  unfold OrderbookStore.bookAt
  rw [h]

/-- The event depends on the books only. -/
theorem publishChange_congr {store store' : OrderbookStore}
    (h : store.books = store'.books) (msg : NormalizedOrderbook)
    (now : Int) :
    publishChange D store msg now = publishChange D store' msg now := by
  unfold publishChange
  have hlevel : levelChange D store msg.marketId msg.clobTokenId
      = levelChange D store' msg.marketId msg.clobTokenId := by
    funext e
    unfold levelChange OrderbookStore.getAggregatedBidLevel
      OrderbookStore.getAggregatedAskLevel
    rw [bookAt_congr h]
  rw [hlevel]

theorem followRun_snoc (D : RustDecimal) (service : OrderbookService)
    (msgs : List (NormalizedOrderbook × Int))
    (msg : NormalizedOrderbook × Int) :
    followRun D service (msgs ++ [msg])
      = follow D service (followRun D service msgs) msg :=
  List.foldl_append

section Follow

variable {s : OrderbookStore × BboCache} {msg : NormalizedOrderbook × Int}

private theorem booksValid_follow (h : s.1.BooksValid) :
    (follow D service s msg).1.BooksValid := by
  intro m a ob hob
  unfold follow at hob
  rw [bookAt_congr (books_processMessage D service s.1 msg.1 msg.2)] at hob
  exact h.apply D msg.1 m a ob hob

private theorem quotedBy_follow (m a : String) :
    quotedBy (follow D service s msg).1 m a
      = quotedBy (s.1.apply D msg.1) m a := by
  funext side q
  unfold quotedBy OrderbookStore.sizeAt OrderbookStore.levelAt follow
  rw [bookAt_congr (books_processMessage D service s.1 msg.1 msg.2)]

private theorem cache_follow (hpub : service.publishChanges = true) :
    (follow D service s msg).2
      = (s.2.handleChange D (.ofEvent (publishChange D
          (s.1.apply D msg.1) msg.1 msg.2).2)).1 := by
  have hbooks := books_processMessage D service s.1 msg.1 msg.2
  unfold follow
  simp only [published_processMessage D hpub, publishChange_congr hbooks]

end Follow

private theorem booksValid_followRun (D : RustDecimal)
    (service : OrderbookService)
    (msgs : List (NormalizedOrderbook × Int)) :
    (followRun D service msgs).1.BooksValid := by
  induction msgs using List.reverseRecOn with
  | nil => exact booksValid_new
  | append_singleton msgs msg ih =>
      unfold followRun at ih ⊢
      rw [List.foldl_append]
      exact booksValid_follow ih

/-- The prices a platform has quoted on a side of an asset's book at the
end of one of the messages. -/
def everQuoted (D : RustDecimal) (service : OrderbookService)
    (msgs : List (NormalizedOrderbook × Int)) (m a : String)
    (side : OrderSide) (q : String) : Set ℚ :=
  {v | ∃ done, done <+: msgs
    ∧ v ∈ quotedBy (followRun D service done).1 m a side q}

section Run

variable {msgs : List (NormalizedOrderbook × Int)}
  {msg : NormalizedOrderbook × Int} {m a q : String} {side : OrderSide}

theorem quotedBy_subset_everQuoted :
    quotedBy (followRun D service msgs).1 m a side q
      ⊆ everQuoted D service msgs m a side q :=
  fun _ hv => ⟨msgs, List.prefix_rfl, hv⟩

theorem mem_everQuoted_nil (v : ℚ) :
    v ∈ everQuoted D service [] m a side q ↔ v ∈ (∅ : Set ℚ) := by
  refine ⟨fun hv => ?_, fun hv => nomatch hv⟩
  obtain ⟨done, hdone, hv⟩ := hv
  obtain rfl := List.prefix_nil.1 hdone
  cases hv

theorem mem_everQuoted_snoc (v : ℚ) :
    v ∈ everQuoted D service (msgs ++ [msg]) m a side q
      ↔ v ∈ everQuoted D service msgs m a side q
        ∨ v ∈ quotedBy (followRun D service (msgs ++ [msg])).1 m a side q
          := by
  unfold everQuoted
  simp only [Set.mem_ofPred_eq, List.prefix_concat_iff, or_and_right,
    exists_or, exists_eq_left]
  exact or_comm

/-- What is quoted after a message was quoted before it or is listed by
it. -/
theorem mem_everQuoted_of_listed (hmsg : ParsableDelta D msg.1) (v : ℚ) :
    v ∈ everQuoted D service (msgs ++ [msg]) msg.1.marketId
        msg.1.clobTokenId side q
      ↔ v ∈ everQuoted D service msgs msg.1.marketId msg.1.clobTokenId
          side q
        ∪ quotedBy ((followRun D service msgs).1.apply D msg.1)
            msg.1.marketId msg.1.clobTokenId side q
          ∩ {v | (side, v) ∈ listedKeys D msg.1} := by
  have hafter : quotedBy (followRun D service (msgs ++ [msg])).1
      msg.1.marketId msg.1.clobTokenId
        = quotedBy ((followRun D service msgs).1.apply D msg.1)
            msg.1.marketId msg.1.clobTokenId := by
    rw [followRun_snoc, quotedBy_follow]
  rw [mem_everQuoted_snoc, hafter]
  refine ⟨fun hv => ?_, fun hv => hv.imp_right And.left⟩
  rcases hv with hv | hv
  · exact Or.inl hv
  · by_cases hlist : (side, v) ∈ listedKeys D msg.1
    · exact Or.inr ⟨hv, hlist⟩
    · exact Or.inl (quotedBy_subset_everQuoted
        ((quotedBy_apply_of_notMem hmsg.1 hlist q).1 hv))

/-- A message of another asset brings nothing new. -/
theorem mem_everQuoted_of_ne (hkey : msg.1.key ≠ (m, a)) (v : ℚ) :
    v ∈ everQuoted D service (msgs ++ [msg]) m a side q
      ↔ v ∈ everQuoted D service msgs m a side q := by
  rw [mem_everQuoted_snoc, followRun_snoc, quotedBy_follow,
    quotedBy_apply_of_ne hkey]
  exact or_iff_left_of_imp fun hv => quotedBy_subset_everQuoted hv

/-- Over every run of deltas whose prices and sizes parse, the cached
bests are the bests of all that was ever quoted. -/
theorem tracks_followRun (hD : D.Lawful)
    (hpub : service.publishChanges = true)
    (hdelta : ∀ msg ∈ msgs, ParsableDelta D msg.1) (m a : String) :
    Tracks ((followRun D service msgs).2.entryAt m a)
      (everQuoted D service msgs m a .buy)
      (everQuoted D service msgs m a .sell) := by
  induction msgs using List.reverseRecOn with
  | nil =>
      have hempty : Tracks (BboCache.new.entryAt m a) (fun _ => ∅)
          fun _ => ∅ := fun _ => ⟨rfl, rfl⟩
      exact hempty.congr (fun q v => (mem_everQuoted_nil v).symm)
        fun q v => (mem_everQuoted_nil v).symm
  | append_singleton msgs msg ih =>
      have hbefore := ih fun msg' hmsg' =>
        hdelta msg' (List.mem_append_left _ hmsg')
      have hmsg := hdelta msg (by simp)
      rw [followRun_snoc, cache_follow hpub]
      by_cases hkey : msg.1.key = (m, a)
      · obtain ⟨rfl, rfl⟩ := Prod.mk.inj hkey
        have hvalid := (booksValid_followRun D service msgs).apply D msg.1
        exact (handleChange_tracks hD hvalid hmsg hbefore msg.2).1.congr
          (fun q v => (mem_everQuoted_of_listed hmsg v).symm)
          fun q v => (mem_everQuoted_of_listed hmsg v).symm
      · rw [entryAt_handleChange_of_ne hkey]
        exact hbefore.congr (fun q v => (mem_everQuoted_of_ne hkey v).symm)
          fun q v => (mem_everQuoted_of_ne hkey v).symm

theorem getPlatformBbo_eq (cache : BboCache) (m a q : String) :
    (cache.getPlatformBbo m a q).bind (·.1)
        = (cache.entryAt m a).bestBids.lookup q
      ∧ (cache.getPlatformBbo m a q).bind (·.2)
        = (cache.entryAt m a).bestAsks.lookup q := by
  unfold BboCache.getPlatformBbo BboCache.entryAt
  cases cache.cache.lookup (m, a) with
  | none => exact ⟨rfl, rfl⟩
  | some entry => exact ⟨rfl, rfl⟩

/-- After every run of deltas whose prices and sizes parse, the cached best
bid of a platform is the greatest price it quotes in the store exactly
when the platform bids as much as it ever did, and the cached best ask is
the least exactly when it asks as little. -/
theorem bbo_tracks_book_iff (hD : D.Lawful)
    (hpub : service.publishChanges = true)
    {msgs : List (NormalizedOrderbook × Int)}
    (hdelta : ∀ msg ∈ msgs, ParsableDelta D msg.1) (m a q : String) :
    (MaxOf (quotedBy (followRun D service msgs).1 m a .buy q)
        ((((followRun D service msgs).2.getPlatformBbo m a q).bind
          (·.1)).map Decimal.val)
      ↔ ∀ v ∈ everQuoted D service msgs m a .buy q,
          ∃ w ∈ quotedBy (followRun D service msgs).1 m a .buy q, v ≤ w)
    ∧ (MinOf (quotedBy (followRun D service msgs).1 m a .sell q)
        ((((followRun D service msgs).2.getPlatformBbo m a q).bind
          (·.2)).map Decimal.val)
      ↔ ∀ v ∈ everQuoted D service msgs m a .sell q,
          ∃ w ∈ quotedBy (followRun D service msgs).1 m a .sell q,
            w ≤ v) := by
  have hbests := tracks_followRun hD hpub hdelta m a q
  have hbbo := getPlatformBbo_eq (followRun D service msgs).2 m a q
  rw [hbbo.1, hbbo.2]
  exact ⟨hbests.1.subset_iff quotedBy_subset_everQuoted,
    hbests.2.subset_iff quotedBy_subset_everQuoted⟩

end Run

/-- A best bid that is removed stays cached, of a platform that quotes
nothing any more. -/
theorem best_bid_outlives_level :
    ¬ ∀ (msgs : List (NormalizedOrderbook × Int)) (m a q : String),
        (∀ msg ∈ msgs, ParsableDelta fixedPoint msg.1) →
        MaxOf (quotedBy (followRun fixedPoint ⟨none, true⟩ msgs).1 m a
            .buy q)
          ((((followRun fixedPoint ⟨none, true⟩ msgs).2.getPlatformBbo m a
            q).bind (·.1)).map Decimal.val) := by
  intro hclaim
  have hbest := hclaim
    [(.deltaOf "polymarket" "m" "t" [⟨.buy, "0.5", "10"⟩], 1),
      (.deltaOf "polymarket" "m" "t" [⟨.buy, "0.5", "0"⟩], 2)]
    "m" "t" "polymarket" (by
      simp only [ParsableDelta, ← Option.isSome_iff_exists]
      decide +kernel)
  obtain ⟨run, hrun⟩ : ∃ run, followRun fixedPoint ⟨none, true⟩
      [(.deltaOf "polymarket" "m" "t" [⟨.buy, "0.5", "10"⟩], 1),
        (.deltaOf "polymarket" "m" "t" [⟨.buy, "0.5", "0"⟩], 2)] = run :=
    ⟨_, rfl⟩
  rw [hrun] at hbest
  have hcached : ((run.2.getPlatformBbo "m" "t" "polymarket").bind
      (·.1)).map Decimal.val = some (1 / 2) := by
    rw [← hrun]
    decide +kernel
  rw [hcached] at hbest
  have hgone : (run.1.sizeAt "m" "t" (.buy, 1 / 2)
      "polymarket").isSome = false := by
    rw [← hrun]
    decide +kernel
  exact Bool.false_ne_true (hgone.symm.trans hbest.1)

/-- A best bid that is taken away, and outbid later. -/
theorem bbo_tracks_book_iff_outbid :
    ∃ run, followRun fixedPoint ⟨none, true⟩
        [(.deltaOf "polymarket" "m" "t"
            [⟨.buy, "0.4", "10"⟩, ⟨.buy, "0.5", "10"⟩], 1),
          (.deltaOf "polymarket" "m" "t" [⟨.buy, "0.5", "0"⟩], 2),
          (.deltaOf "polymarket" "m" "t" [⟨.buy, "0.55", "10"⟩], 3)] = run
      ∧ MaxOf (quotedBy run.1 "m" "t" .buy "polymarket")
        (((run.2.getPlatformBbo "m" "t" "polymarket").bind (·.1)).map
          Decimal.val) := by
  obtain ⟨msgs, hmsgs⟩ : ∃ msgs : List (NormalizedOrderbook × Int), msgs
      = [(.deltaOf "polymarket" "m" "t"
            [⟨.buy, "0.4", "10"⟩, ⟨.buy, "0.5", "10"⟩], 1),
          (.deltaOf "polymarket" "m" "t" [⟨.buy, "0.5", "0"⟩], 2),
          (.deltaOf "polymarket" "m" "t" [⟨.buy, "0.55", "10"⟩], 3)] :=
    ⟨_, rfl⟩
  rw [← hmsgs]
  refine ⟨_, rfl, ?_⟩
  have hparse : ∀ msg ∈ msgs, ParsableDelta fixedPoint msg.1 := by
    rw [hmsgs]
    simp only [ParsableDelta, ← Option.isSome_iff_exists]
    decide +kernel
  have hpub : (OrderbookService.mk none true).publishChanges = true := rfl
  refine (bbo_tracks_book_iff fixedPoint_lawful hpub hparse "m" "t"
    "polymarket").1.2 fun v hv => ?_
  -- the cached best is no less than what was ever quoted
  have hbest := (tracks_followRun fixedPoint_lawful hpub hparse "m" "t"
    "polymarket").1
  have hcached : ((((followRun fixedPoint ⟨none, true⟩ msgs).2.entryAt "m"
      "t").bestBids.lookup "polymarket").map Decimal.val)
        = some (11 / 20) := by
    rw [hmsgs]
    decide +kernel
  rw [hcached] at hbest
  have hquoted : ((followRun fixedPoint ⟨none, true⟩ msgs).1.sizeAt "m" "t"
      (.buy, 11 / 20) "polymarket").isSome = true := by
    rw [hmsgs]
    decide +kernel
  exact ⟨11 / 20, hquoted, hbest.2 hv⟩

end Wup.Executor
