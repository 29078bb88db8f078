/-
A snapshot request gets what the store has.

Ids of plain segments reach the route they are meant for
(`httpGet_orderbook`, `httpGet_market`), and where the sums of a book are
in range its route answers. The counts of a response are of 64 bits
without a sign; the library is taken to read them as they are printed
(`ReadsCounts`). Then what the service writes of a book is what the
gateway reads of it, field by field of those it knows
(`fetchOrderbook_eq`, `fetchMarket_eq`), and an asset the store does not
have is a snapshot that is skipped. For the store of any run of the
service it is enough that its messages came over the wire and that what
is counted fits in memory (`snapshot_requests`).
-/
import Wup.Executor.Proofs.Consumption
import Wup.Orderbook.Proofs.OrPanic
import Wup.Wire.Proofs.Schema
import Wup.Wire.Responses

namespace Wup

open Json
open ExternalServices (optionValue readOption readString readVec
  readOption_str readInt_int printable_optionValue structFields)

/-- The library reads counts of 64 bits. -/
def SerdeJson.ReadsCounts (J : SerdeJson) : Prop :=
  ∀ n : Nat, n < 2 ^ 64 → J.number (intText n) = some (.int n)

theorem compactJson_readsCounts : compactJson.ReadsCounts := by
  intro n hn
  show some (readNumber (intText n)) = _
  rw [readNumber, readInt_intText, if_pos ⟨rfl, by omega, by omega⟩]

-- ================================================================= writing

/-- The numbers of a response fit their types. -/
structure OrderbookResponse.InRange (r : OrderbookResponse) : Prop where
  bidLevels : r.bidLevels < 2 ^ 64
  askLevels : r.askLevels < 2 ^ 64
  lastReceivedAt : -2 ^ 63 ≤ r.lastReceivedAt ∧ r.lastReceivedAt < 2 ^ 63

section Printable

variable {number : List Char → Option Number} {n : Nat}

theorem printable_mapValue (m : HashMap String String) :
    Node.Printable number (n + 1) (mapValue m) := by
  refine .record ?_ ?_
  · rw [List.map_map]
    exact m.nodupKeys
  · exact List.forall_mem_map.2 fun e _ => .str e.2

theorem MarketInfo.printable (m : MarketInfo) :
    Node.Printable number (n + 2) m.toValue := by
  have hmap : ∀ m : HashMap String String, ∀ v ∈ mapField m,
      Node.Printable number (n + 1) v := by
    intro m v hv
    obtain ⟨-, hmap⟩ := Option.ite_none_left_eq_some.1 hv
    rw [← Option.some.inj hmap]
    exact printable_mapValue m
  have hid : ∀ v ∈ some (Node.str m.marketId),
      Node.Printable number (n + 1) v := by
    intro v hv
    obtain rfl := Option.some.inj hv
    exact .str _
  refine .ofFields (by simp) ?_
  simp only [List.forall_mem_cons]
  exact ⟨hid, hmap _, hmap _, nofun⟩

end Printable

variable {J : SerdeJson}

theorem OrderbookResponse.printable (hJ : J.Lawful) (hcounts : J.ReadsCounts)
    {r : OrderbookResponse} (h : r.InRange) :
    Node.Printable J.number 5 r.toValue := by
  have hlevels : ∀ levels : List AggregatedPriceLevel,
      Node.Printable J.number 4
        (vecValue AggregatedPriceLevel.toValue levels) :=
    fun _ => printable_vecValue fun l _ => l.printable
  have hplatforms : Node.Printable J.number 4 (vecValue .str r.platforms) :=
    printable_vecValue fun s _ => .str s
  have htime := hJ.number_intText h.lastReceivedAt.1 h.lastReceivedAt.2
  have htext := @printable_optionValue J.number 4
  refine .record (by simp) ?_
  simp only [List.forall_mem_cons]
  exact ⟨r.market.printable, .str _, .str _, hplatforms, hlevels _,
    hlevels _, printable_mapValue _, printable_mapValue _, htext _, htext _,
    htext _, htext _, .str _, .str _, .int (hcounts _ h.bidLevels),
    .int (hcounts _ h.askLevels), .str _, .int htime,
    .int (hcounts _ r.updateCount.toNat_lt), nofun⟩

theorem MarketOrderbooksResponse.printable (hJ : J.Lawful)
    (hcounts : J.ReadsCounts) {r : MarketOrderbooksResponse}
    (hcount : r.assetCount < 2 ^ 64)
    (h : ∀ asset ∈ r.assets, asset.InRange) :
    Node.Printable J.number 7 r.toValue := by
  have hassets : Node.Printable J.number 6
      (vecValue OrderbookResponse.toValue r.assets) :=
    printable_vecValue fun asset ha =>
      OrderbookResponse.printable hJ hcounts (h asset ha)
  refine .record (by simp) ?_
  simp only [List.forall_mem_cons]
  exact ⟨.str _, printable_mapValue _, printable_mapValue _,
    .int (hcounts _ hcount), hassets, nofun⟩

-- ================================================================= reading

namespace Gateway

theorem readHttpLevel_toValue (l : AggregatedPriceLevel) :
    readHttpLevel l.toValue = some l := by
  have hplatforms := readVec_self PlatformEntry.ofValue_toValue l.platforms
  unfold readHttpLevel AggregatedPriceLevel.toValue
  refine bind_ofMembers (by simp) fun field hfield => ?_
  simp only [List.forall_mem_cons] at hfield
  simp [hfield, readString, hplatforms]

/-- The gateway reads the fields it knows. -/
theorem OrderbookHttpResponse.ofValue_toValue (r : OrderbookResponse) :
    OrderbookHttpResponse.ofValue r.toValue = some (.ofResponse r) := by
  have hlevels := readVec_self readHttpLevel_toValue
  have hplatforms : readVec readString (vecValue .str r.platforms)
      = some r.platforms := by
    refine readVec_self ?_ _
    exact fun _ => rfl
  unfold OrderbookHttpResponse.ofValue OrderbookResponse.toValue
  refine bind_ofMembers (by simp) fun field hfield => ?_
  simp only [List.forall_mem_cons] at hfield
  simp [hfield, readString, hlevels, hplatforms, readOption_str,
    OrderbookHttpResponse.ofResponse]

theorem MarketOrderbooksHttpResponse.ofValue_toValue
    {r : MarketOrderbooksResponse} (hcount : r.assetCount < 2 ^ 64) :
    MarketOrderbooksHttpResponse.ofValue r.toValue
      = some (.ofResponse r) := by
  have hassets := readVec_vecValue OrderbookHttpResponse.ofValue_toValue
    r.assets
  have hcount' : ExternalServices.readInt 0 (2 ^ 64)
      (natValue r.assetCount) = some (r.assetCount : Int) :=
    readInt_int ⟨Int.natCast_nonneg _, by omega⟩
  unfold MarketOrderbooksHttpResponse.ofValue
    MarketOrderbooksResponse.toValue
  refine bind_ofMembers (by simp) fun field hfield => ?_
  simp only [List.forall_mem_cons] at hfield
  -- steps by definition would have the kernel unfold the bounds
  simp -implicitDefEqProofs [-Int.reducePow, hfield, readString, hassets,
    hcount', MarketOrderbooksHttpResponse.ofResponse]

-- ================================================================ requests

variable {D : RustDecimal} {store : OrderbookStore} {H : HttpLayer}

theorem not_mem_of_plain {segments : List String}
    (h : ∀ s ∈ segments, PlainSegment s) : "" ∉ segments :=
  fun hmem => (h "" hmem).1 rfl

/-- The path of an asset takes the route of an asset. -/
theorem httpGet_orderbook (hH : H.Lawful) {m a : String}
    (hm : PlainSegment m) (ha : PlainSegment a) :
    httpGet H D J store ("/orderbook/" ++ m ++ "/" ++ a)
      = (intoResponse J OrderbookResponse.toValue
          <$> OrderbookApi.getOrderbookHandler D store m a
            none).toOption := by
  have hplain : ∀ s ∈ ["orderbook", m, a], PlainSegment s := by
    simp only [List.forall_mem_cons]
    exact ⟨by decide +kernel, hm, ha, nofun⟩
  have hpath : "/orderbook/" ++ m ++ "/" ++ a
      = pathOf ["orderbook", m, a] := by
    simp only [pathOf, List.foldr_cons, List.foldr_nil, String.append_empty,
      ← String.append_assoc]
    rfl
  rw [httpGet, hpath, hH.plain _ hplain]
  simp only
  rw [serve, if_neg (not_mem_of_plain hplain)]
  rfl

/-- The path of a market takes the route of a market. -/
theorem httpGet_market (hH : H.Lawful) {m : String} (hm : PlainSegment m) :
    httpGet H D J store ("/orderbook/" ++ m)
      = (intoResponse J MarketOrderbooksResponse.toValue
          <$> OrderbookApi.getMarketHandler D store m none).toOption := by
  have hplain : ∀ s ∈ ["orderbook", m], PlainSegment s := by
    simp only [List.forall_mem_cons]
    exact ⟨by decide +kernel, hm, nofun⟩
  have hpath : "/orderbook/" ++ m = pathOf ["orderbook", m] := by
    simp only [pathOf, List.foldr_cons, List.foldr_nil, String.append_empty,
      ← String.append_assoc]
    rfl
  rw [httpGet, hpath, hH.plain _ hplain]
  simp only
  rw [serve, if_neg (not_mem_of_plain hplain)]
  rfl

/-- What comes over as JSON is read back, and what is not found is a
request without a result. -/
theorem readAnswer_orNotFound {α β : Type} {toValue : α → Value}
    {ofValue : Value → Option β} {f : α → β} {response : Option α}
    {message : String}
    (hread : ∀ r ∈ response,
      J.fromStr (J.toString (toValue r)) = some (toValue r))
    (hvalue : ∀ r ∈ response, ofValue (toValue r) = some (f r)) :
    readAnswer J ofValue
        (intoResponse J toValue (OrderbookApi.orNotFound response message))
      = some (response.map f) := by
  cases response with
  | none => rfl
  | some r =>
      simp only [OrderbookApi.orNotFound, intoResponse, readAnswer,
        HttpAnswer.isSuccess]
      rw [hread r rfl, Option.bind_some, hvalue r rfl]
      rfl

/-- A request for a snapshot gets the book, or finds that there is none. -/
theorem fetchOrderbook_eq (hH : H.Lawful) (hJ : J.Lawful)
    (hcounts : J.ReadsCounts) {m a : String} (hm : PlainSegment m)
    (ha : PlainSegment a)
    (hsafe : ∀ ob ∈ store.bookAt m a, ob.ReadsSafely D)
    (h : ∀ r ∈ store.get D m a none, r.InRange) :
    fetchOrderbook H D J store m a
      = some ((store.get D m a none).map .ofResponse) := by
  unfold fetchOrderbook
  rw [httpGet_orderbook hH hm ha, OrderbookApi.getOrderbookHandler,
    OrPanic.get_eq hsafe]
  exact readAnswer_orNotFound
    (fun r hr => hJ.fromStr_of_printable
      (OrderbookResponse.printable hJ hcounts (h r hr)) (by decide))
    fun r _ => OrderbookHttpResponse.ofValue_toValue r

theorem fetchMarket_eq (hH : H.Lawful) (hJ : J.Lawful)
    (hcounts : J.ReadsCounts) {m : String} (hm : PlainSegment m)
    (hsafe : ∀ a ob, store.bookAt m a = some ob → ob.ReadsSafely D)
    (h : ∀ r ∈ store.getMarket D m none,
      r.assetCount < 2 ^ 64 ∧ ∀ asset ∈ r.assets, asset.InRange) :
    fetchMarket H D J store m
      = some ((store.getMarket D m none).map .ofResponse) := by
  unfold fetchMarket
  rw [httpGet_market hH hm, OrderbookApi.getMarketHandler,
    OrPanic.getMarket_eq hsafe]
  exact readAnswer_orNotFound
    (fun r hr => hJ.fromStr_of_printable
      (MarketOrderbooksResponse.printable hJ hcounts (h r hr).1 (h r hr).2)
      (by decide))
    fun r hr => MarketOrderbooksHttpResponse.ofValue_toValue (h r hr).1

end Gateway

-- ================================================================= the run

/-- What is counted of a store fits in memory. -/
structure OrderbookStore.FitsUsize (store : OrderbookStore) : Prop where
  levels : ∀ m a ob, store.bookAt m a = some ob →
    ob.bidLevels < 2 ^ 64 ∧ ob.askLevels < 2 ^ 64
  assets : ∀ m books, store.books.lookup m = some books →
    books.entries.length < 2 ^ 64

variable {D : RustDecimal}

/-- The books of a run of the service are those of its messages. -/
theorem books_serviceRun (service : OrderbookService)
    (msgs : List (NormalizedOrderbook × Int)) :
    (Executor.serviceRun D service msgs).books
      = (runStore D (msgs.map (·.1))).books := by
  induction msgs using List.reverseRecOn with
  | nil => rfl
  | append_singleton msgs msg ih =>
      have hlast : Executor.serviceRun D service (msgs ++ [msg])
          = (service.processMessage D
              (Executor.serviceRun D service msgs) msg.1 msg.2).1 := by
        simp [Executor.serviceRun]
      have hstore : runStore D ((msgs ++ [msg]).map (·.1))
          = (runStore D (msgs.map (·.1))).apply D msg.1 := by
        simp [runStore]
      rw [hlast, hstore, books_processMessage]
      simp only [OrderbookStore.apply, ih]

theorem bookAt_serviceRun (service : OrderbookService)
    (msgs : List (NormalizedOrderbook × Int)) (m a : String) :
    (Executor.serviceRun D service msgs).bookAt m a
      = family D (msgs.map (·.1)) (m, a) := by
  rw [← OrderbookStore.bookAt_runStore]
  exact Executor.bookAt_congr (books_serviceRun service msgs) m a

/-- After one message the only book is the one of the message. -/
theorem bookAt_serviceRun_single {service : OrderbookService}
    {msg : NormalizedOrderbook} {now : Int} {m a : String} {ob : Orderbook}
    (h : (Executor.serviceRun D service [(msg, now)]).bookAt m a
      = some ob) :
    ob = Orderbook.apply D (.new msg.clobTokenId msg.marketId) msg := by
  rw [bookAt_serviceRun] at h
  by_cases hk : msg.key = (m, a)
  · obtain ⟨rfl, rfl⟩ := Prod.mk.inj hk
    have hown : ownMessages (msg.marketId, msg.clobTokenId) [msg] = [msg] :=
      List.filter_eq_self.2 fun x hx => by
        rw [List.mem_singleton.1 hx]
        exact decide_eq_true hk
    obtain ⟨-, hob⟩ := Option.ite_none_left_eq_some.1 h
    rw [← Option.some.inj hob, List.map_singleton, hown]
    rfl
  · have hnone : ownMessages (m, a) [msg] = [] := by
      rw [ownMessages_eq_nil, List.map_singleton, List.mem_singleton]
      exact fun h => hk h.symm
    exact absurd hnone (Option.ite_none_left_eq_some.1 h).1

/-- A book was last updated by one of its messages. -/
theorem lastReceivedAt_family {msgs : List NormalizedOrderbook}
    {k : String × String} {ob : Orderbook}
    (h : family D msgs k = some ob) :
    ∃ msg ∈ msgs, ob.lastReceivedAt = msg.receivedAt := by
  obtain ⟨hne, hob⟩ := Option.ite_none_left_eq_some.1 h
  obtain ⟨own, msg, hown⟩ :=
    (List.eq_nil_or_concat (ownMessages k msgs)).resolve_left hne
  rw [List.concat_eq_append] at hown
  have hmem : msg ∈ ownMessages k msgs := by
    rw [hown]
    exact List.mem_append_right own List.mem_cons_self
  refine ⟨msg, List.mem_of_mem_filter hmem, ?_⟩
  rw [← Option.some.inj hob, hown, List.foldl_append]
  rfl

/-- After any run of the service over messages that came over the wire, a
snapshot request for plain ids is answered with what the store has of the
asset, or of the market, and never fails to be read, where the sums of the
books asked for are in range. -/
theorem snapshot_requests {H : HttpLayer} (hH : H.Lawful) (hD : D.Rounds)
    {J : SerdeJson} (hJ : J.Lawful) (hcounts : J.ReadsCounts)
    (service : OrderbookService) {msgs : List (NormalizedOrderbook × Int)}
    (htimely : ∀ msg ∈ msgs, msg.1.Timely)
    (hfits : (Executor.serviceRun D service msgs).FitsUsize) :
    let store := Executor.serviceRun D service msgs
    (∀ m a, PlainSegment m → PlainSegment a →
      (∀ ob ∈ store.bookAt m a, ob.ReadsFit) →
        Gateway.fetchOrderbook H D J store m a
          = some ((store.get D m a none).map .ofResponse))
      ∧ ∀ m, PlainSegment m →
        (∀ a ob, store.bookAt m a = some ob → ob.ReadsFit) →
          Gateway.fetchMarket H D J store m
            = some ((store.getMarket D m none).map .ofResponse) := by
  intro store
  have hrange : ∀ m a ob, store.bookAt m a = some ob → ∀ metadata,
      (ob.toResponse D none metadata).InRange := by
    intro m a ob hob metadata
    obtain ⟨hbids, hasks⟩ := hfits.levels m a ob hob
    refine ⟨hbids, hasks, ?_⟩
    have hfamily := hob
    rw [bookAt_serviceRun] at hfamily
    obtain ⟨msg, hmsg, hlast⟩ := lastReceivedAt_family hfamily
    obtain ⟨e, he, rfl⟩ := List.mem_map.1 hmsg
    show -2 ^ 63 ≤ ob.lastReceivedAt ∧ ob.lastReceivedAt < 2 ^ 63
    rw [hlast]
    exact htimely e he
  refine ⟨fun m a hm ha hread => ?_, fun m hm hread => ?_⟩
  · refine Gateway.fetchOrderbook_eq hH hJ hcounts hm ha
      (fun ob hob => (hread ob hob).readsSafely hD) fun r hr => ?_
    obtain ⟨ob, hob, rfl⟩ := Option.map_eq_some_iff.1 hr
    exact hrange m a ob hob _
  · refine Gateway.fetchMarket_eq hH hJ hcounts hm
      (fun a ob hob => (hread a ob hob).readsSafely hD) fun r hr => ?_
    obtain ⟨books, hbooks, rfl⟩ := Option.map_eq_some_iff.1 hr
    refine ⟨?_, List.forall_mem_map.2 fun ob hob => ?_⟩
    · simpa [HashMap.values] using hfits.assets m books hbooks
    · obtain ⟨a, ha⟩ := HashMap.mem_values.1 hob
      refine hrange m a ob ?_ _
      unfold OrderbookStore.bookAt
      rw [hbooks, Option.bind_some, ha]

-- ============================================================= an instance

/-- Layers that cut a path at its slashes and do nothing else. -/
def slashHttp : HttpLayer where
  request path :=
    some ⟨((path.toList.splitOn '/').drop 1).map String.ofList, none⟩

theorem toList_pathOf (segments : List String) :
    (pathOf segments).toList
      = ['/'].intercalate ([] :: segments.map String.toList) := by
  induction segments with
  | nil => rfl
  | cons s segments ih =>
      have hcons : pathOf (s :: segments) = "/" ++ s ++ pathOf segments :=
        rfl
      rw [hcons, String.toList_append, String.toList_append, ih,
        List.map_cons, List.intercalate_cons_cons]
      cases segments with
      | nil => simp
      | cons s' segments => simp [List.intercalate_cons_cons]

theorem slashHttp_lawful : slashHttp.Lawful where
  plain segments hplain := by
    have hfree : ∀ l ∈ [] :: segments.map String.toList, '/' ∉ l := by
      rw [List.forall_mem_cons, List.forall_mem_map]
      refine ⟨List.not_mem_nil, fun s hs hslash => ?_⟩
      have hno := List.all_eq_true.1 (hplain s hs).2.2.2 '/' hslash
      revert hno
      decide
    have hsplit : (pathOf segments).toList.splitOn '/'
        = [] :: segments.map String.toList := by
      rw [toList_pathOf]
      exact List.splitOn_intercalate '/' hfree (List.cons_ne_nil _ _)
    show some (HttpRequest.mk _ none) = _
    have hsame : String.ofList ∘ String.toList = id :=
      funext fun s => String.ofList_toList
    rw [hsplit, List.drop_succ_cons, List.drop_zero, List.map_map, hsame,
      List.map_id]

/-- A bid and an ask. -/
def twoLevels : NormalizedOrderbook :=
  .snapshotOf "polymarket" "m" "t" [⟨"0.5", "10"⟩] [⟨"0.6", "1"⟩]

theorem readsFit_twoLevels :
    (Orderbook.apply rustDecimal (.new "t" "m") twoLevels).ReadsFit where
  bids := Levels.fits_of_nonneg (s := 0) (by decide) (by decide +kernel)
    (by decide +kernel)
  asks := Levels.fits_of_nonneg (s := 0) (by decide) (by decide +kernel)
    (by decide +kernel)
  mid := by decide +kernel
  spread := by decide +kernel

/-- A market with one book of two levels. -/
theorem snapshot_requests_one_book :
    let msg := twoLevels
    let store := Executor.serviceRun rustDecimal ⟨none, true⟩ [(msg, 0)]
    Gateway.fetchOrderbook slashHttp rustDecimal compactJson store "m" "t"
        = some ((store.get rustDecimal "m" "t" none).map .ofResponse)
      ∧ Gateway.fetchMarket slashHttp rustDecimal compactJson store "m"
        = some ((store.getMarket rustDecimal "m" none).map .ofResponse) := by
  intro msg store
  have htimely : ∀ e ∈ [(msg, (0 : Int))], e.1.Timely := by
    intro e he
    obtain rfl := List.mem_singleton.1 he
    exact ⟨by decide, by decide⟩
  have hread : ∀ m a ob, store.bookAt m a = some ob → ob.ReadsFit :=
    fun m a ob hob => bookAt_serviceRun_single hob ▸ readsFit_twoLevels
  have hfits : store.FitsUsize := by
    refine ⟨fun m a ob hob => ?_, fun m books hbooks => ?_⟩
    · rw [bookAt_serviceRun_single hob]
      decide +kernel
    · rw [books_serviceRun] at hbooks
      have hlookup : (runStore rustDecimal [msg]).books.lookup m
          = if m = "m" then some _ else _ :=
        HashMap.lookup_upsert ..
      rw [List.map_singleton, hlookup] at hbooks
      split_ifs at hbooks with hm
      · rw [← Option.some.inj hbooks]
        decide +kernel
      · cases hbooks
  obtain ⟨hasset, hmarket⟩ := snapshot_requests slashHttp_lawful
    rustDecimal_rounds compactJson_lawful compactJson_readsCounts
    ⟨none, true⟩ htimely hfits
  exact ⟨hasset "m" "t" (by decide +kernel) (by decide +kernel)
      (hread "m" "t"), hmarket "m" (by decide +kernel) (hread "m")⟩

end Wup
