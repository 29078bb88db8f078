/-
The best prices the exchange reported, and the ones a book keeps.

What a message reports is read off its JSON (`reports`): each mention of
an asset reports a best price of a side, or none. A price change keeps
the pair of the last mention, an absent price as an empty text; so what
the book has recorded is the last report exactly as long as no message
ends on a mention without one (`best_price_kept_iff`). Everything is
about one book and one side: `recorded_concat` and `lastReport_concat`
say what one message does to either.
-/
import Wup.Normalizer.Payload
import Wup.Normalizer.Proofs.Grouping

namespace Wup.Normalizer

open Json Orderbook ParsedMessage

-- ======================================================== what is reported

/-- What a field reports: a number or a string, unless it is empty. -/
def reported : Option Value → Option String
  | some (.str s) => if s = "" then none else some s
  | some (.num n) => if n.toString = "" then none else some n.toString
  | _ => none

/-- The elements of an array. -/
def elementsOf : Option Value → List Value
  | some (.arr elems) => elems.elemList
  | _ => []

/-- A field of a record that is an object or an array. -/
def fieldOf (names : List String) (name : String) (v : Value) :
    Option Value :=
  (structFields names v).bind (· name)

/-- Where a book message lists the levels of a side. -/
def levelsKey : Side → String
  | .buy => "bids"
  | .sell => "asks"

/-- Where a price change has the best price of a side. -/
def bestKey : Side → String
  | .buy => "best_bid"
  | .sell => "best_ask"

/-- What a message reports of the best price of an asset, each time it
mentions it. A book message reports the price of the first level. -/
def reports (side : Side) (marketId assetId : String) (msg : Value) :
    List (Option String) :=
  if msg.get? "market" ≠ some (.str marketId) then []
  else if eventTypeOf msg = "book" then
    if msg.get? "asset_id" ≠ some (.str assetId) then []
    else
      ((elementsOf (msg.get? (levelsKey side))).head?.map fun level =>
        reported (fieldOf RawPriceLevel.fieldNames "price" level)).toList
  else if eventTypeOf msg = "price_change" then
    ((elementsOf (msg.get? "price_changes")).filter fun change =>
        fieldOf RawPriceChange.fieldNames "asset_id" change
          = some (.str assetId)).map fun change =>
      reported (fieldOf RawPriceChange.fieldNames (bestKey side) change)
  else []

/-- The last price reported. -/
def lastReport (side : Side) (marketId assetId : String)
    (msgs : List Value) : Option String :=
  (msgs.flatMap (reports side marketId assetId)).reduceOption.getLast?

-- ======================================================== what is recorded

/-- The best prices the exchange reported on a side. -/
def exchangeBest (side : Side) (ob : Orderbook) : HashMap String String :=
  match side with
  | .buy => ob.exchangeBestBid
  | .sell => ob.exchangeBestAsk

/-- The best price a normalized message carries for a side. -/
def carriedBest (side : Side) (msg : NormalizedOrderbook) :
    Option String :=
  match side with
  | .buy => msg.bestBid
  | .sell => msg.bestAsk

/-- What a store has recorded for the adapter's platform. -/
def recorded (side : Side) (marketId assetId : String)
    (store : OrderbookStore) : Option String :=
  (store.bookAt marketId assetId).bind fun ob =>
    (exchangeBest side ob).lookup PolymarketAdapter.name

/-- A payload as it arrives, and what the adapter finds when it handles
it. -/
structure Payload where
  text : String
  orders : GroupOrders
  normalizedAt : String

/-- A message of a payload. -/
structure Arrival where
  value : Value
  order : GroupOrder
  normalizedAt : String

/-- The normalized messages a payload becomes; none if it is turned
down. -/
def Payload.outputs (J : SerdeJson) (p : Payload) :
    List NormalizedOrderbook :=
  (PolymarketAdapter.parseAndTransform J p.orders p.text
    p.normalizedAt).getD []

/-- The messages of a payload; none if it is turned down. -/
def Payload.arrivals (J : SerdeJson) (p : Payload) : List Arrival :=
  match J.fromStr p.text with
  | none => []
  | some value =>
      if ((messages value).mapM parseValue).isSome then
        (messages value).zipIdx.map fun (v, i) =>
          ⟨v, p.orders i, p.normalizedAt⟩
      else []

/-- The normalized messages a message becomes. -/
def Arrival.outputs (x : Arrival) : List NormalizedOrderbook :=
  ((parseValue x.value).map (transform x.order x.normalizedAt)).getD []

/-- The store after some messages. -/
def storeAfter (D : RustDecimal) (xs : List Arrival) : OrderbookStore :=
  runStore D (xs.flatMap Arrival.outputs)

/-- A payload becomes what its messages become. -/
theorem outputs_eq (J : SerdeJson) (p : Payload) :
    p.outputs J = (p.arrivals J).flatMap Arrival.outputs := by
  have main : ∀ (vs : List Value) (parsed : List ParsedMessage) (n : Nat),
      vs.mapM parseValue = some parsed →
      (parsed.zipIdx n).flatMap (fun x =>
          x.1.transform (p.orders x.2) p.normalizedAt)
        = ((vs.zipIdx n).map fun x =>
            (⟨x.1, p.orders x.2, p.normalizedAt⟩ : Arrival)).flatMap
              Arrival.outputs := by
    intro vs
    induction vs with
    | nil =>
        rintro parsed n h
        obtain rfl := Option.some.inj h
        rfl
    | cons v vs ih =>
        intro parsed n h
        rw [List.mapM_cons] at h
        obtain ⟨msg, hmsg, h⟩ := Option.bind_eq_some_iff.1 h
        obtain ⟨msgs, hmsgs, h⟩ := Option.bind_eq_some_iff.1 h
        obtain rfl := Option.some.inj h
        rw [List.zipIdx_cons, List.zipIdx_cons, List.flatMap_cons,
          List.map_cons, List.flatMap_cons, ih msgs (n + 1) hmsgs]
        simp [Arrival.outputs, hmsg]
  unfold Payload.outputs Payload.arrivals
    PolymarketAdapter.parseAndTransform parseAll
  cases J.fromStr p.text with
  | none => rfl
  | some value =>
      cases hparsed : (messages value).mapM parseValue with
      | none => simp [hparsed]
      | some parsed => simpa [hparsed] using main _ parsed 0 hparsed

-- ============================================================= one message

/-- What is read of a field is what it reports, or an empty text. -/
theorem stringOrNumberDefault_eq (field : Option Value) :
    stringOrNumberDefault field = (reported field).getD "" := by
  have htext (text : String) :
      text = (if text = "" then none else some text).getD "" := by
    split_ifs with h
    · exact h
    · rfl
  cases field with
  | none => rfl
  | some v =>
      cases v with
      | str s => exact htext s
      | num n => exact htext n.toString
      | _ => rfl

theorem reported_ne_empty (field : Option Value) :
    reported field ≠ some "" := by
  unfold reported
  split
  · split_ifs with hs
    · simp
    · simpa using hs
  · split_ifs with hn
    · simp
    · simpa using hn
  · simp

/-- A level carries the price it reports. -/
theorem price_ofValue {v : Value} {l : RawPriceLevel}
    (h : RawPriceLevel.ofValue v = some l) :
    l.price
      = (reported (fieldOf RawPriceLevel.fieldNames "price" v)).getD "" := by
  unfold RawPriceLevel.ofValue at h
  obtain ⟨field, hfield, h⟩ := Option.bind_eq_some_iff.1 h
  obtain ⟨price, hprice, h⟩ := Option.bind_eq_some_iff.1 h
  obtain ⟨size, hsize, h⟩ := Option.bind_eq_some_iff.1 h
  obtain rfl := Option.some.inj h
  obtain ⟨text, htext, rfl⟩ := Option.map_eq_some_iff.1 hprice
  rw [← stringOrNumberDefault_eq, fieldOf, hfield, Option.bind_some, htext]
  rfl

/-- The best price a change carries for a side. -/
def RawPriceChange.best (side : Side) (c : RawPriceChange) : String :=
  match side with
  | .buy => c.bestBid
  | .sell => c.bestAsk

/-- A change carries the best prices it reports. -/
theorem best_ofValue {v : Value} {c : RawPriceChange}
    (h : RawPriceChange.ofValue v = some c) :
    fieldOf RawPriceChange.fieldNames "asset_id" v = some (.str c.assetId)
      ∧ ∀ side, c.best side = (reported
        (fieldOf RawPriceChange.fieldNames (bestKey side) v)).getD "" := by
  unfold RawPriceChange.ofValue at h
  obtain ⟨field, hfield, h⟩ := Option.bind_eq_some_iff.1 h
  obtain ⟨assetId, hasset, h⟩ := Option.bind_eq_some_iff.1 h
  obtain ⟨price, -, h⟩ := Option.bind_eq_some_iff.1 h
  obtain ⟨size, -, h⟩ := Option.bind_eq_some_iff.1 h
  obtain ⟨side, -, h⟩ := Option.bind_eq_some_iff.1 h
  obtain rfl := Option.some.inj h
  simp only [fieldOf, hfield, Option.bind_some, ← stringOrNumberDefault_eq]
  refine ⟨readString_eq_some hasset, fun side => ?_⟩
  cases side <;> rfl

theorem mapM_elementsOf {α : Type*} {read : Value → Option α}
    {field : Option Value} {xs : List α} (h : readVec read field = some xs) :
    (elementsOf field).mapM read = some xs := by
  unfold readVec at h
  split at h
  · exact h
  · cases h

/-- A message with an event type is an object. -/
theorem structFields_eq {v : Value} (h : eventTypeOf v ≠ "unknown")
    (names : List String) :
    structFields names v = some fun name => v.get? name := by
  cases v with
  | obj members => rfl
  | _ => exact absurd rfl h

/-- The levels a book message lists on a side. -/
def RawBookMessage.listed (book : RawBookMessage) (side : Side) :
    List RawPriceLevel :=
  match side with
  | .buy => book.bids
  | .sell => book.asks

theorem book_ofValue {v : Value} {book : RawBookMessage}
    (htype : eventTypeOf v = "book")
    (h : RawBookMessage.ofValue v = some book) :
    v.get? "asset_id" = some (.str book.assetId)
      ∧ v.get? "market" = some (.str book.market)
      ∧ ∀ side, (elementsOf (v.get? (levelsKey side))).mapM
          RawPriceLevel.ofValue = some (book.listed side) := by
  unfold RawBookMessage.ofValue at h
  rw [structFields_eq (by rw [htype]; decide)] at h
  obtain ⟨field, hfield, h⟩ := Option.bind_eq_some_iff.1 h
  obtain rfl := Option.some.inj hfield
  obtain ⟨eventType, -, h⟩ := Option.bind_eq_some_iff.1 h
  obtain ⟨assetId, hasset, h⟩ := Option.bind_eq_some_iff.1 h
  obtain ⟨market, hmarket, h⟩ := Option.bind_eq_some_iff.1 h
  obtain ⟨bids, hbids, h⟩ := Option.bind_eq_some_iff.1 h
  obtain ⟨asks, hasks, h⟩ := Option.bind_eq_some_iff.1 h
  obtain ⟨timestamp, -, h⟩ := Option.bind_eq_some_iff.1 h
  obtain ⟨receivedAt, -, h⟩ := Option.bind_eq_some_iff.1 h
  obtain rfl := Option.some.inj h
  refine ⟨readString_eq_some hasset, readString_eq_some hmarket, ?_⟩
  intro side
  cases side with
  | buy => exact mapM_elementsOf hbids
  | sell => exact mapM_elementsOf hasks

theorem priceChange_ofValue {v : Value} {msg : RawPriceChangeMessage}
    (htype : eventTypeOf v = "price_change")
    (h : RawPriceChangeMessage.ofValue v = some msg) :
    v.get? "market" = some (.str msg.market)
      ∧ (elementsOf (v.get? "price_changes")).mapM RawPriceChange.ofValue
        = some msg.priceChanges := by
  unfold RawPriceChangeMessage.ofValue at h
  rw [structFields_eq (by rw [htype]; decide)] at h
  obtain ⟨field, hfield, h⟩ := Option.bind_eq_some_iff.1 h
  obtain rfl := Option.some.inj hfield
  obtain ⟨eventType, -, h⟩ := Option.bind_eq_some_iff.1 h
  obtain ⟨market, hmarket, h⟩ := Option.bind_eq_some_iff.1 h
  obtain ⟨priceChanges, hchanges, h⟩ := Option.bind_eq_some_iff.1 h
  obtain ⟨timestamp, -, h⟩ := Option.bind_eq_some_iff.1 h
  obtain ⟨receivedAt, -, h⟩ := Option.bind_eq_some_iff.1 h
  obtain rfl := Option.some.inj h
  exact ⟨readString_eq_some hmarket, mapM_elementsOf hchanges⟩

/-- Reading a list element by element keeps what is asked of them. -/
private theorem mapM_filter_map {α β : Type*} {read : Value → Option α}
    {vs : List Value} {xs : List α} (h : vs.mapM read = some xs)
    {p : Value → Bool} {q : α → Bool} {f : Value → β} {g : α → β}
    (hp : ∀ v x, read v = some x → p v = q x)
    (hf : ∀ v x, read v = some x → f v = g x) :
    (vs.filter p).map f = (xs.filter q).map g := by
  induction vs generalizing xs with
  | nil =>
      obtain rfl := Option.some.inj h
      rfl
  | cons v vs ih =>
      rw [List.mapM_cons] at h
      obtain ⟨x, hx, h⟩ := Option.bind_eq_some_iff.1 h
      obtain ⟨tail, htail, h⟩ := Option.bind_eq_some_iff.1 h
      obtain rfl := Option.some.inj h
      rw [List.filter_cons, List.filter_cons, hp v x hx]
      split_ifs
      · rw [List.map_cons, List.map_cons, hf v x hx, ih htail]
      · exact ih htail

private theorem mapM_head? {α β : Type*} {read : Value → Option α}
    {vs : List Value} {xs : List α} (h : vs.mapM read = some xs)
    {f : Value → β} {g : α → β}
    (hf : ∀ v x, read v = some x → f v = g x) :
    vs.head?.map f = xs.head?.map g := by
  have hmap := mapM_filter_map h (fun _ _ _ => rfl) hf
    (p := fun _ => true) (q := fun _ => true)
  rw [List.filter_true, List.filter_true] at hmap
  rw [← List.head?_map, ← List.head?_map, hmap]

theorem carriedBest_book (side : Side) (m a : String) {v : Value}
    {book : RawBookMessage} (htype : eventTypeOf v = "book")
    (h : RawBookMessage.ofValue v = some book) (normalizedAt : String)
    (o : Option String) :
    (ownMessages (m, a) [transformBook book normalizedAt]).foldl
        (fun o out => (carriedBest side out).or o) o
      = ((reports side m a v).getLast?.map (·.getD "")).or o := by
  obtain ⟨hasset, hmarket, hlevels⟩ := book_ofValue htype h
  unfold reports ownMessages
  rw [hasset, hmarket, if_pos htype]
  by_cases hm : book.market = m
  · by_cases ha : book.assetId = a
    · have hkey : (transformBook book normalizedAt).key = (m, a) :=
        Prod.ext hm ha
      have hcarried : carriedBest side (transformBook book normalizedAt)
          = (book.listed side).head?.map (·.price) := by
        have hhead (levels : List RawPriceLevel) :
            (levels.map RawPriceLevel.toPriceLevel).head?.map (·.price)
              = levels.head?.map (·.price) := by
          cases levels <;> rfl
        cases side with
        | buy => exact hhead book.bids
        | sell => exact hhead book.asks
      rw [List.filter_singleton, if_neg (by simp [hm]),
        if_neg (by simp [ha])]
      simp only [hkey, decide_true, cond_true, List.foldl_cons,
        List.foldl_nil, hcarried]
      rw [← mapM_head? (hlevels side) fun _ _ => (price_ofValue · |>.symm)]
      cases (elementsOf (v.get? (levelsKey side))).head? <;> rfl
    · have hkey : (transformBook book normalizedAt).key ≠ (m, a) :=
        fun heq => ha (Prod.ext_iff.1 heq).2
      rw [if_neg (by simp [hm]), if_pos (by simp [ha])]
      simp [hkey]
  · have hkey : (transformBook book normalizedAt).key ≠ (m, a) :=
      fun heq => hm (Prod.ext_iff.1 heq).1
    rw [if_pos (by simp [hm])]
    simp [hkey]

theorem carriedBest_priceChange (side : Side) (m a : String) {v : Value}
    {msg : RawPriceChangeMessage} (htype : eventTypeOf v = "price_change")
    (h : RawPriceChangeMessage.ofValue v = some msg) (order : GroupOrder)
    (normalizedAt : String) (o : Option String) :
    (ownMessages (m, a) (transformPriceChange order msg normalizedAt)).foldl
        (fun o out => (carriedBest side out).or o) o
      = ((reports side m a v).getLast?.map (·.getD "")).or o := by
  obtain ⟨hmarket, hchanges⟩ := priceChange_ofValue htype h
  have hnotBook : eventTypeOf v ≠ "book" := by
    rw [htype]
    decide
  by_cases hm : msg.market = m
  · have hreports : (reports side m a v).map (·.getD "")
        = (changesOf msg.priceChanges a).map (·.best side) := by
      unfold reports
      rw [hmarket, if_neg (by simpa using hm), if_neg hnotBook,
        if_pos htype, List.map_map]
      refine mapM_filter_map hchanges (fun change c hc => ?_)
        fun change c hc => ?_
      · rw [(best_ofValue hc).1]
        simp
      · exact ((best_ofValue hc).2 side).symm
    have hcarried : carriedBest side (groupedDelta msg normalizedAt a)
        = some (((changesOf msg.priceChanges a).getLast?.map
            (·.best side)).getD "") := by
      cases side <;> rfl
    rw [ownMessages_outputs, ← List.getLast?_map, hreports,
      List.getLast?_map]
    by_cases hnil : changesOf msg.priceChanges a = []
    · rw [if_neg fun h => h.2 hnil, hnil]
      rfl
    · rw [if_pos ⟨hm, hnil⟩, List.foldl_cons, List.foldl_nil, hcarried,
        List.getLast?_eq_some_getLast hnil]
      rfl
  · have hreports : reports side m a v = [] := by
      unfold reports
      rw [hmarket, if_pos (by simpa using hm)]
    rw [ownMessages_outputs, if_neg fun h => hm h.1, hreports]
    rfl

/-- Every element of a list is read exactly if the list is. -/
theorem isSome_mapM_iff {α β : Type*} {f : α → Option β} {xs : List α} :
    (xs.mapM f).isSome = true ↔ ∀ x ∈ xs, (f x).isSome = true := by
  induction xs with
  | nil => exact iff_of_true rfl fun _ h => nomatch h
  | cons x xs ih =>
      rw [List.mapM_cons, List.forall_mem_cons, ← ih]
      cases f x with
      | none => simp
      | some y =>
          cases xs.mapM f with
          | none => simp
          | some ys => simp

/-- The normalized messages of a book carry what the last mention of the
asset reports, an absent price as an empty text. -/
theorem carriedBest_transform (side : Side) (m a : String) {v : Value}
    {msg : ParsedMessage} (h : parseValue v = some msg)
    (order : GroupOrder) (normalizedAt : String) (o : Option String) :
    (ownMessages (m, a) (msg.transform order normalizedAt)).foldl
        (fun o out => (carriedBest side out).or o) o
      = ((reports side m a v).getLast?.map (·.getD "")).or o := by
  unfold parseValue at h
  simp only at h
  split_ifs at h with hbook hchange
  · obtain ⟨book, hread, rfl⟩ := Option.map_eq_some_iff.1 h
    exact carriedBest_book side m a hbook hread normalizedAt o
  · obtain ⟨change, hread, rfl⟩ := Option.map_eq_some_iff.1 h
    exact carriedBest_priceChange side m a hchange hread order normalizedAt o
  · obtain rfl := Option.some.inj h
    have hnone : reports side m a v = [] := by
      unfold reports
      rw [if_neg hbook, if_neg hchange]
      exact ite_self _
    rw [hnone]
    rfl

-- ================================================================= the run

theorem platform_transform {msg : ParsedMessage} {order : GroupOrder}
    {normalizedAt : String} {out : NormalizedOrderbook}
    (h : out ∈ msg.transform order normalizedAt) :
    out.platform = PolymarketAdapter.name := by
  cases msg with
  | book book =>
      obtain rfl := List.mem_singleton.1 h
      rfl
  | priceChange msg =>
      obtain ⟨e, -, rfl⟩ := List.mem_map.1 h
      rfl
  | unknown eventType => cases h

/-- What a book has recorded is what its messages carried last. -/
theorem recorded_runStore (D : RustDecimal) (side : Side) (m a : String)
    {outs : List NormalizedOrderbook}
    (h : ∀ out ∈ outs, out.platform = PolymarketAdapter.name) :
    recorded side m a (runStore D outs)
      = (ownMessages (m, a) outs).foldl
          (fun o out => (carriedBest side out).or o) none := by
  have hown : (ownMessages (m, a) outs).filter
      (fun msg => msg.platform = PolymarketAdapter.name)
        = ownMessages (m, a) outs := by
    refine List.filter_eq_self.2 fun out hout => ?_
    simpa using h out (List.mem_of_mem_filter hout)
  obtain ⟨hbid, hask⟩ := exchangeBbo_foldl_filter D (.new a m)
    (ownMessages (m, a) outs) PolymarketAdapter.name
  rw [hown] at hbid hask
  unfold recorded
  rw [OrderbookStore.bookAt_runStore, family]
  split_ifs with hnil
  · rw [hnil]
    rfl
  · cases side with
    | buy => exact hbid
    | sell => exact hask

variable (D : RustDecimal) (side : Side) (m a : String)

/-- What one more message does to the record. -/
theorem recorded_concat (xs : List Arrival) {x : Arrival}
    (hx : (parseValue x.value).isSome = true) :
    recorded side m a (storeAfter D (xs ++ [x]))
      = ((reports side m a x.value).getLast?.map (·.getD "")).or
          (recorded side m a (storeAfter D xs)) := by
  have hplatform : ∀ xs : List Arrival,
      ∀ out ∈ xs.flatMap Arrival.outputs,
        out.platform = PolymarketAdapter.name := by
    intro xs out hout
    obtain ⟨y, -, hy⟩ := List.mem_flatMap.1 hout
    unfold Arrival.outputs at hy
    cases hmsg : parseValue y.value with
    | none =>
        rw [hmsg] at hy
        cases hy
    | some msg =>
        rw [hmsg] at hy
        exact platform_transform hy
  obtain ⟨msg, hmsg⟩ := Option.isSome_iff_exists.1 hx
  have hout : x.outputs = msg.transform x.order x.normalizedAt := by
    rw [Arrival.outputs, hmsg]
    rfl
  unfold storeAfter
  rw [recorded_runStore D side m a (hplatform _),
    recorded_runStore D side m a (hplatform _), List.flatMap_append,
    ownMessages, List.filter_append, List.foldl_append,
    List.flatMap_singleton, hout]
  exact carriedBest_transform side m a hmsg x.order x.normalizedAt _

/-- What one more message does to the last report. -/
theorem lastReport_concat (msgs : List Value) (msg : Value) :
    lastReport side m a (msgs ++ [msg])
      = (reports side m a msg).reduceOption.getLast?.or
          (lastReport side m a msgs) := by
  unfold lastReport
  rw [List.flatMap_append, List.flatMap_singleton,
    List.reduceOption_append, List.getLast?_append]

/-- No mention reports an empty text. -/
theorem reports_ne_empty {msg : Value} {report : Option String}
    (h : report ∈ reports side m a msg) : report ≠ some "" := by
  unfold reports at h
  split_ifs at h
  · cases h
  · cases h
  · obtain ⟨level, -, rfl⟩ :=
      Option.map_eq_some_iff.1 (Option.mem_toList.1 h)
    exact reported_ne_empty _
  · obtain ⟨change, -, rfl⟩ := List.mem_map.1 h
    exact reported_ne_empty _
  · cases h

theorem lastReport_ne_empty (msgs : List Value) :
    lastReport side m a msgs ≠ some "" := by
  intro h
  obtain ⟨msg, -, hmem⟩ := List.mem_flatMap.1
    (List.reduceOption_mem_iff.1 (List.mem_of_getLast? h))
  exact reports_ne_empty side m a hmem rfl

theorem isSome_parseValue {J : SerdeJson} {p : Payload} {x : Arrival}
    (h : x ∈ p.arrivals J) : (parseValue x.value).isSome = true := by
  unfold Payload.arrivals at h
  split at h
  · cases h
  · next value hvalue =>
      split_ifs at h with hparsed
      · obtain ⟨⟨v, i⟩, hmem, rfl⟩ := List.mem_map.1 h
        exact isSome_mapM_iff.1 hparsed v (List.fst_mem_of_mem_zipIdx hmem)
      · cases h

/-- The message does not end on a mention of the asset that reports no
price. -/
def EndsOnReport (msg : Value) : Prop :=
  ∀ report ∈ (reports side m a msg).getLast?, report.isSome = true

/-- A book has the last best price the exchange reported, at all times,
exactly if no message ends on a mention of the asset that reports none. -/
theorem best_price_kept_iff (J : SerdeJson) (payloads : List Payload) :
    (∀ past, past <+: payloads.flatMap (Payload.arrivals J) →
      recorded side m a (storeAfter D past)
        = lastReport side m a (past.map (·.value)))
    ↔ ∀ x ∈ payloads.flatMap (Payload.arrivals J),
      EndsOnReport side m a x.value := by
  have hparse : ∀ x ∈ payloads.flatMap (Payload.arrivals J),
      (parseValue x.value).isSome = true := by
    intro x hx
    obtain ⟨p, -, hp⟩ := List.mem_flatMap.1 hx
    exact isSome_parseValue hp
  refine ⟨fun h x hx report hreport => ?_, fun h past => ?_⟩
  · obtain ⟨before, after, hsplit⟩ := List.append_of_mem hx
    have hpast : before ++ [x] <+: payloads.flatMap (Payload.arrivals J) :=
      ⟨after, by rw [hsplit, List.append_assoc, List.singleton_append]⟩
    have hkept := h _ hpast
    rw [recorded_concat D side m a before (hparse x hx), hreport] at hkept
    cases report with
    | none => exact absurd hkept.symm (lastReport_ne_empty side m a _)
    | some price => rfl
  · induction past using List.reverseRecOn with
    | nil => exact fun _ => rfl
    | append_singleton past x ih =>
        intro hpast
        have hx := hpast.subset (List.mem_append_right _ (.head _))
        have hends := h x hx
        rw [recorded_concat D side m a past (hparse x hx), List.map_append,
          List.map_singleton, lastReport_concat,
          ih ((List.prefix_append ..).trans hpast)]
        congr 1
        cases hlast : (reports side m a x.value).getLast? with
        | none =>
            rw [List.getLast?_eq_none_iff.1 hlast]
            rfl
        | some report =>
            obtain ⟨price, rfl⟩ :=
              Option.isSome_iff_exists.1 (hends report hlast)
            obtain ⟨others, hothers⟩ := List.getLast?_eq_some_iff.1 hlast
            rw [hothers, List.reduceOption_append]
            simp [List.reduceOption]

/-- A price change of an asset, with or without a best bid. -/
private def changeMessage (bestBid : Option String) : Value :=
  let change : Node .members :=
    .member "asset_id" (.str "t") (.member "price" (.str "0.4")
      (.member "size" (.str "10") (.member "side" (.str "BUY")
        (match bestBid with
          | some bid => .member "best_bid" (.str bid) .done
          | none => .done))))
  .obj (.member "event_type" (.str "price_change")
    (.member "market" (.str "m")
      (.member "price_changes" (.arr (.cons (.obj change) .nil))
        (.member "timestamp" (.str "1") .done))))

/-- A change that reports a best bid, and one that reports none. -/
theorem missing_best_bid_recorded :
    let payload (bestBid : Option String) : Payload :=
      ⟨compactJson.toString (changeMessage bestBid), fun _ => .stored, ""⟩
    let past := [payload (some "0.5"), payload none].flatMap
      (Payload.arrivals compactJson)
    lastReport .buy "m" "t" (past.map (·.value)) = some "0.5"
      ∧ recorded .buy "m" "t" (storeAfter fixedPoint past) = some "" := by
  decide +kernel

end Wup.Normalizer
