/-
The routes of the HTTP API give one picture of a store.

After any run of the service whose books can be read without leaving the
range of a decimal, every route answers, and the four of them find an
asset, or a market, exactly when a message of it was processed. A market
lists what its assets answer one by one, each once; a depth only cuts the
levels; and the BBO is what stands at the top of the orderbook, for any
depth but zero (`ApiAgrees`, `api_agrees`).
-/
import Wup.Orderbook.Api
import Wup.Orderbook.Proofs.OrPanic
import Wup.Gateway.Proofs.Snapshot
import Wup.Orderbook.Proofs.Views
import Wup.Wire.Proofs.Responses

namespace Wup

variable {D : RustDecimal}

namespace OrderbookApi

theorem orNotFound_eq_ok {α : Type} {response : Option α} {message : String}
    {r : α} : orNotFound response message = .ok r ↔ response = some r := by
  cases response with
  | none => exact iff_of_false nofun nofun
  | some r' => simp [orNotFound]

-- =============================================================== statement

/-- The BBO to be read off the top of an orderbook. -/
def topOf (r : OrderbookResponse) : BboResponse where
  assetId := r.assetId
  marketId := r.marketId
  market := r.market
  exchangeBestBid := r.exchangeBestBid
  exchangeBestAsk := r.exchangeBestAsk
  systemBestBid := r.bids.head?.map (·.price)
  systemBestAsk := r.asks.head?.map (·.price)
  midPrice := r.midPrice
  spread := r.spread
  lastReceivedAt := r.lastReceivedAt

/-- An orderbook cut to a depth. -/
def cut (r : OrderbookResponse) (depth : Nat) : OrderbookResponse :=
  { r with
    bids := r.bids.take depth
    asks := r.asks.take depth }

/-- The routes agree on a store that has had messages of some assets. -/
structure ApiAgrees (D : RustDecimal) (store : OrderbookStore)
    (seen : String × String → Prop) : Prop where
  orderbook_answers : ∀ m a depth,
    (getOrderbookHandler D store m a depth).isOk = true
  bbo_answers : ∀ m a, (getBboHandler D store m a).isOk = true
  market_answers : ∀ m depth, (getMarketHandler D store m depth).isOk = true
  bbos_answer : ∀ m, (getMarketBbosHandler D store m).isOk = true
  orderbook_found : ∀ m a depth,
    (∃ r, getOrderbookHandler D store m a depth = .ok (.ok r)) ↔ seen (m, a)
  bbo_found : ∀ m a,
    (∃ r, getBboHandler D store m a = .ok (.ok r)) ↔ seen (m, a)
  market_found : ∀ m depth,
    (∃ r, getMarketHandler D store m depth = .ok (.ok r)) ↔ ∃ a, seen (m, a)
  bbos_found : ∀ m,
    (∃ r, getMarketBbosHandler D store m = .ok (.ok r)) ↔ ∃ a, seen (m, a)
  addressed : ∀ m a depth r,
    getOrderbookHandler D store m a depth = .ok (.ok r) →
      r.assetId = a ∧ r.marketId = m ∧ r.market.marketId = m
  depth_cuts : ∀ m a r, getOrderbookHandler D store m a none = .ok (.ok r) →
    ∀ n, getOrderbookHandler D store m a (some n) = .ok (.ok (cut r n))
  bbo_on_top : ∀ m a depth r, depth ≠ some 0 →
    getOrderbookHandler D store m a depth = .ok (.ok r) →
      getBboHandler D store m a = .ok (.ok (topOf r))
  market_lists : ∀ m depth r,
    getMarketHandler D store m depth = .ok (.ok r) →
      r.assetCount = r.assets.length ∧ (r.assets.map (·.assetId)).Nodup
        ∧ ∀ asset, asset ∈ r.assets
          ↔ ∃ a, getOrderbookHandler D store m a depth = .ok (.ok asset)
  bbos_listed : ∀ m r, getMarketBbosHandler D store m = .ok (.ok r) →
    r.assetCount = r.bbos.length ∧ (r.bbos.map (·.assetId)).Nodup
      ∧ ∀ bbo, bbo ∈ r.bbos
        ↔ ∃ a, getBboHandler D store m a = .ok (.ok bbo)

-- ================================================================== levels

/-- The top of a cut walk is the top of the walk. -/
theorem head_topLevels {walk : List (Decimal × PlatformSizes)}
    (h : ∀ e ∈ walk, e.2.isEmpty = false) {depth : Option Nat}
    (hdepth : depth ≠ some 0) :
    (topLevels walk depth).head? = walk.head? := by
  obtain ⟨hall, hcut⟩ := topLevels_of_live h
  match depth, hdepth with
  | none, _ => rw [hall]
  | some (n + 1), _ => rw [hcut, List.head?_take, if_neg (by omega)]

theorem price_head (walk : List (Decimal × PlatformSizes)) :
    ((walk.map fun e => aggregatedPriceLevel D e.1 e.2).head?).map (·.price)
      = (walk.head?.map (·.1)).map D.toString := by
  cases walk with
  | nil => rfl
  | cons e walk => rfl

/-- The best prices are printed at the top of both sides. -/
theorem toBboResponse_eq_topOf {ob : Orderbook} (h : ob.Valid)
    (hbid : ob.systemBestBid = ob.bids.entries.getLast?.map (·.1))
    (hask : ob.systemBestAsk = ob.asks.entries.head?.map (·.1))
    {depth : Option Nat} (hdepth : depth ≠ some 0)
    (metadata : ResponseMetadata) :
    ob.toBboResponse D metadata
      = topOf (ob.toResponse D depth metadata) := by
  have hlive : ∀ e ∈ ob.bids.entries.reverse, e.2.isEmpty = false :=
    fun e he => h.live_bids e (List.mem_reverse.1 he)
  have hbids : ((ob.topBidsWithPlatforms D depth).head?).map (·.price)
      = ob.systemBestBid.map D.toString := by
    unfold Orderbook.topBidsWithPlatforms
    rw [price_head, head_topLevels hlive hdepth, List.head?_reverse, hbid]
  have hasks : ((ob.topAsksWithPlatforms D depth).head?).map (·.price)
      = ob.systemBestAsk.map D.toString := by
    unfold Orderbook.topAsksWithPlatforms
    rw [price_head, head_topLevels h.live_asks hdepth, hask]
  simp only [topOf, Orderbook.toBboResponse, Orderbook.toResponse, hbids,
    hasks]

/-- A depth cuts the levels and nothing else. -/
theorem toResponse_cut {ob : Orderbook} (h : ob.Valid)
    (metadata : ResponseMetadata) (n : Nat) :
    ob.toResponse D (some n) metadata
      = cut (ob.toResponse D none metadata) n := by
  have hlive : ∀ e ∈ ob.bids.entries.reverse, e.2.isEmpty = false :=
    fun e he => h.live_bids e (List.mem_reverse.1 he)
  obtain ⟨hbids, hbids'⟩ := topLevels_of_live hlive
  obtain ⟨hasks, hasks'⟩ := topLevels_of_live h.live_asks
  simp only [cut, Orderbook.toResponse, Orderbook.topBidsWithPlatforms,
    Orderbook.topAsksWithPlatforms, hbids, hbids', hasks, hasks',
    List.map_take]

-- =================================================================== books

variable {store : OrderbookStore}

/-- The assets of a market are the entries of its map. -/
theorem nodup_clobTokenIds (hkeyed : store.Keyed) {m : String}
    {books : HashMap String Orderbook}
    (hbooks : store.books.lookup m = some books) :
    (books.values.map (·.clobTokenId)).Nodup := by
  have hids : books.values.map (·.clobTokenId)
      = books.entries.map (·.1) := by
    unfold HashMap.values
    rw [List.map_map]
    refine List.map_congr_left fun e he => ?_
    have hob : store.bookAt m e.1 = some e.2 := by
      unfold OrderbookStore.bookAt
      rw [hbooks, Option.bind_some]
      exact AList.mem_lookup_iff.2 he
    exact (hkeyed m e.1 e.2 hob).2
  rw [hids]
  exact books.keys_nodup

/-- What is made of a market's books one by one. -/
theorem mem_map_values {α : Type} {m : String}
    {books : HashMap String Orderbook}
    (hbooks : store.books.lookup m = some books) (f : Orderbook → α)
    {x : α} :
    x ∈ books.values.map f ↔ ∃ a, (store.bookAt m a).map f = some x := by
  have hbook : ∀ a, store.bookAt m a = books.lookup a := by
    intro a
    unfold OrderbookStore.bookAt
    rw [hbooks, Option.bind_some]
  simp only [List.mem_map, HashMap.mem_values, Option.map_eq_some_iff, hbook]
  exact ⟨fun ⟨ob, ⟨a, ha⟩, hx⟩ => ⟨a, ob, ha, hx⟩,
    fun ⟨a, ob, ha, hx⟩ => ⟨ob, ⟨a, ha⟩, hx⟩⟩

-- ================================================================== stores

/-- What the books of a store are like, in every run. -/
structure Sound (store : OrderbookStore) (seen : String × String → Prop) :
    Prop where
  keyed : store.Keyed
  found : ∀ m a, (∃ ob, store.bookAt m a = some ob) ↔ seen (m, a)
  market : ∀ m, (∃ books, store.books.lookup m = some books)
    ↔ ∃ a, seen (m, a)
  valid : ∀ m a ob, store.bookAt m a = some ob → ob.Valid
  best : ∀ m a ob, store.bookAt m a = some ob →
    ob.systemBestBid = ob.bids.entries.getLast?.map (·.1)
      ∧ ob.systemBestAsk = ob.asks.entries.head?.map (·.1)

theorem sound_runStore (msgs : List NormalizedOrderbook) :
    Sound (runStore D msgs) fun k => ∃ msg ∈ msgs, msg.key = k where
  keyed := keyed_runStore msgs
  found m a := by
    rw [← Option.isSome_iff_exists, OrderbookStore.bookAt_runStore,
      isSome_family, List.mem_map]
  market m := by
    rw [← Option.isSome_iff_exists, OrderbookStore.isSome_lookup_runStore,
      List.mem_map]
    constructor
    · rintro ⟨msg, hmsg, rfl⟩
      exact ⟨msg.clobTokenId, msg, hmsg, rfl⟩
    · rintro ⟨a, msg, hmsg, hkey⟩
      exact ⟨msg, hmsg, congrArg Prod.fst hkey⟩
  valid m a ob hob := by
    rw [OrderbookStore.bookAt_runStore] at hob
    obtain ⟨-, hob⟩ := Option.ite_none_left_eq_some.1 hob
    rw [← Option.some.inj hob]
    exact valid_foldl_apply D (valid_new _ _) _
  best m a ob hob := by
    rw [OrderbookStore.bookAt_runStore] at hob
    obtain ⟨-, hob⟩ := Option.ite_none_left_eq_some.1 hob
    rw [← Option.some.inj hob]
    exact systemBest_foldl_apply D _ _ _

theorem Sound.congr {store' : OrderbookStore} {seen : String × String → Prop}
    (h : Sound store seen) (hbooks : store'.books = store.books) :
    Sound store' seen := by
  have hbook := Executor.bookAt_congr hbooks
  refine ⟨fun m a => ?_, fun m a => ?_, fun m => ?_, fun m a => ?_,
    fun m a => ?_⟩
  · rw [hbook]
    exact h.keyed m a
  · rw [hbook]
    exact h.found m a
  · rw [hbooks]
    exact h.market m
  · rw [hbook]
    exact h.valid m a
  · rw [hbook]
    exact h.best m a

-- ================================================================== routes

section Routes

variable {seen : String × String → Prop}

/-- What a route answers is what its reader finds. -/
theorem answer_eq_ok {α : Type} {response : Option α} {message : String}
    {x : OrPanic (Except ApiError α)}
    (hx : x = .ok (orNotFound response message)) {r : α} :
    x = .ok (.ok r) ↔ response = some r := by
  rw [hx, Except.ok.injEq, orNotFound_eq_ok]

variable (hsafe : store.ReadsSafely D)

include hsafe

theorem getOrderbookHandler_eq (m a : String) (depth : Option Nat) :
    getOrderbookHandler D store m a depth
      = .ok (orNotFound (store.get D m a depth) ("Orderbook for market '"
          ++ m ++ "', asset '" ++ a ++ "' not found")) := by
  unfold getOrderbookHandler
  rw [OrPanic.get_eq fun ob hob => hsafe m a ob hob]
  rfl

theorem getBboHandler_eq (m a : String) :
    getBboHandler D store m a
      = .ok (orNotFound (store.getBbo D m a) ("BBO for market '" ++ m
          ++ "', asset '" ++ a ++ "' not found")) := by
  unfold getBboHandler
  rw [OrPanic.getBbo_eq fun ob hob => hsafe m a ob hob]
  rfl

theorem getMarketHandler_eq (m : String) (depth : Option Nat) :
    getMarketHandler D store m depth
      = .ok (orNotFound (store.getMarket D m depth)
          ("Market '" ++ m ++ "' not found")) := by
  unfold getMarketHandler
  rw [OrPanic.getMarket_eq (hsafe m)]
  rfl

theorem getMarketBbosHandler_eq (m : String) :
    getMarketBbosHandler D store m
      = .ok (orNotFound (store.getMarketBbos D m)
          ("Market '" ++ m ++ "' not found")) := by
  unfold getMarketBbosHandler
  rw [OrPanic.getMarketBbos_eq (hsafe m)]
  rfl

theorem getOrderbookHandler_eq_ok {m a : String} {depth : Option Nat}
    {r : OrderbookResponse} :
    getOrderbookHandler D store m a depth = .ok (.ok r)
      ↔ store.get D m a depth = some r :=
  answer_eq_ok (getOrderbookHandler_eq hsafe m a depth)

theorem getBboHandler_eq_ok {m a : String} {r : BboResponse} :
    getBboHandler D store m a = .ok (.ok r) ↔ store.getBbo D m a = some r :=
  answer_eq_ok (getBboHandler_eq hsafe m a)

theorem getMarketHandler_eq_ok {m : String} {depth : Option Nat}
    {r : MarketOrderbooksResponse} :
    getMarketHandler D store m depth = .ok (.ok r)
      ↔ store.getMarket D m depth = some r :=
  answer_eq_ok (getMarketHandler_eq hsafe m depth)

theorem getMarketBbosHandler_eq_ok {m : String} {r : MarketBbosResponse} :
    getMarketBbosHandler D store m = .ok (.ok r)
      ↔ store.getMarketBbos D m = some r :=
  answer_eq_ok (getMarketBbosHandler_eq hsafe m)

theorem Sound.apiAgrees (h : Sound store seen) : ApiAgrees D store seen where
  orderbook_answers m a depth := by
    rw [getOrderbookHandler_eq hsafe]
    rfl
  bbo_answers m a := by
    rw [getBboHandler_eq hsafe]
    rfl
  market_answers m depth := by
    rw [getMarketHandler_eq hsafe]
    rfl
  bbos_answer m := by
    rw [getMarketBbosHandler_eq hsafe]
    rfl
  orderbook_found m a depth := by
    rw [← h.found]
    simp [getOrderbookHandler_eq_ok hsafe, OrderbookStore.get]
  bbo_found m a := by
    rw [← h.found]
    simp [getBboHandler_eq_ok hsafe, OrderbookStore.getBbo]
  market_found m depth := by
    rw [← h.market]
    simp [getMarketHandler_eq_ok hsafe, OrderbookStore.getMarket]
  bbos_found m := by
    rw [← h.market]
    simp [getMarketBbosHandler_eq_ok hsafe, OrderbookStore.getMarketBbos]
  addressed m a depth r hr := by
    obtain ⟨ob, hob, rfl⟩ := Option.map_eq_some_iff.1
      ((getOrderbookHandler_eq_ok hsafe).1 hr)
    obtain ⟨hm, ha⟩ := h.keyed m a ob hob
    exact ⟨ha, hm, rfl⟩
  depth_cuts m a r hr n := by
    obtain ⟨ob, hob, rfl⟩ := Option.map_eq_some_iff.1
      ((getOrderbookHandler_eq_ok hsafe).1 hr)
    refine (getOrderbookHandler_eq_ok hsafe).2
      (Option.map_eq_some_iff.2 ⟨ob, hob, ?_⟩)
    exact toResponse_cut (h.valid m a ob hob) _ n
  bbo_on_top m a depth r hdepth hr := by
    obtain ⟨ob, hob, rfl⟩ := Option.map_eq_some_iff.1
      ((getOrderbookHandler_eq_ok hsafe).1 hr)
    obtain ⟨hbid, hask⟩ := h.best m a ob hob
    refine (getBboHandler_eq_ok hsafe).2
      (Option.map_eq_some_iff.2 ⟨ob, hob, ?_⟩)
    exact toBboResponse_eq_topOf (h.valid m a ob hob) hbid hask hdepth _
  market_lists m depth r hr := by
    obtain ⟨books, hbooks, rfl⟩ := Option.map_eq_some_iff.1
      ((getMarketHandler_eq_ok hsafe).1 hr)
    refine ⟨rfl, ?_, fun asset => ?_⟩
    · rw [List.map_map]
      exact nodup_clobTokenIds h.keyed hbooks
    · simp only [getOrderbookHandler_eq_ok hsafe]
      exact mem_map_values hbooks _
  bbos_listed m r hr := by
    obtain ⟨books, hbooks, rfl⟩ := Option.map_eq_some_iff.1
      ((getMarketBbosHandler_eq_ok hsafe).1 hr)
    refine ⟨rfl, ?_, fun bbo => ?_⟩
    · rw [List.map_map]
      exact nodup_clobTokenIds h.keyed hbooks
    · simp only [getBboHandler_eq_ok hsafe]
      exact mem_map_values hbooks _

end Routes

/-- After any run of the service whose books have their sums in range, its
routes answer and agree. -/
theorem api_agrees (hD : D.Rounds) (service : OrderbookService)
    (msgs : List (NormalizedOrderbook × Int))
    (hfits : ∀ m a ob,
      (Executor.serviceRun D service msgs).bookAt m a = some ob →
        ob.ReadsFit) :
    ApiAgrees D (Executor.serviceRun D service msgs)
      fun k => ∃ msg ∈ msgs.map (·.1), msg.key = k :=
  ((sound_runStore (msgs.map (·.1))).congr
    (books_serviceRun service msgs)).apiAgrees
      fun m a ob hob => (hfits m a ob hob).readsSafely hD

/-- One book of two levels. -/
theorem api_agrees_two_levels :
    ApiAgrees rustDecimal
      (Executor.serviceRun rustDecimal ⟨none, true⟩ [(twoLevels, 0)])
      fun k => ∃ msg ∈ [twoLevels], msg.key = k :=
  api_agrees rustDecimal_rounds ⟨none, true⟩ [(twoLevels, 0)]
    fun _ _ _ hob => bookAt_serviceRun_single hob ▸ readsFit_twoLevels

end OrderbookApi

end Wup
