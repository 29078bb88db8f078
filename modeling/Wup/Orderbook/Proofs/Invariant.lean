/-
The representation invariant of a book (`Orderbook.Valid`), kept by every
message and so by every run from the empty book (`valid_foldl_apply`).

Four of its parts need no induction hypothesis. A message ends by
recomputing the best prices and pruning the empty levels, so the levels
are live and the best prices are extrema whatever the book was before.
The other parts follow the quotes (`quotes_apply`) and the frame
(`rest_apply`).
-/
import Wup.Orderbook.Proofs.Family

namespace Wup

open Orderbook

variable (D : RustDecimal)

-- =========================================================== the invariant

/-- The prices somebody quotes on a side. -/
def Orderbook.quoted (ob : Orderbook) (side : Side) : Set ℚ :=
  {p | ∃ q, (ob.sizeAt side p q).isSome = true}

/-- What every reachable book satisfies. -/
structure Orderbook.Valid (ob : Orderbook) : Prop where
  /-- No level is empty. -/
  live : ∀ (side : Side) p ps,
    (ob.book side.isBid).get? p = some ps → ps.isEmpty = false
  /-- No stored size is zero. -/
  nonzero : ∀ side p q size,
    ob.sizeAt side p q = some size → size.isZero = false
  bestBid : MaxOf (ob.quoted .buy) (ob.systemBestBid.map Decimal.val)
  bestAsk : MinOf (ob.quoted .sell) (ob.systemBestAsk.map Decimal.val)
  nodup : ob.platforms.Nodup
  /-- Who quotes is tracked. -/
  tracked : ∀ side p q,
    (ob.sizeAt side p q).isSome = true → q ∈ ob.platforms
  /-- Who reported a best price is tracked. -/
  reported : ∀ q, (ob.exchangeBestBid.lookup q).isSome = true
    ∨ (ob.exchangeBestAsk.lookup q).isSome = true → q ∈ ob.platforms

-- ======================================================= the quoted prices

/-- A price is quoted exactly when a non-empty level stands there. -/
theorem quoted_eq_entries (ob : Orderbook) (side : Side) :
    ob.quoted side
      = {r | ∃ e ∈ (ob.book side.isBid).entries,
          (!e.2.isEmpty) = true ∧ e.1.val = r} := by
  ext p
  simp only [quoted, sizeAt, Set.mem_ofPred_eq, Bool.not_eq_true']
  refine ⟨fun h => ?_, fun h => ?_⟩
  · obtain ⟨q, hq⟩ := h
    obtain ⟨size, hsize⟩ := Option.isSome_iff_exists.1 hq
    obtain ⟨ps, hps, hget⟩ := Option.bind_eq_some_iff.1 hsize
    obtain ⟨k, hk, hval⟩ := BTreeMap.get?_eq_some_iff.1 hps
    refine ⟨(k, ps), hk, ?_, hval⟩
    exact PlatformSizes.isEmpty_eq_false_iff.2 ⟨q, by rw [hget]; rfl⟩
  · obtain ⟨e, he, hempty, hval⟩ := h
    obtain ⟨q, hq⟩ := PlatformSizes.isEmpty_eq_false_iff.1 hempty
    have hget : (ob.book side.isBid).get? p = some e.2 :=
      BTreeMap.get?_eq_some_iff.2 ⟨e.1, he, hval⟩
    exact ⟨q, by rw [hget]; exact hq⟩

/-- What is quoted is a matter of the quotes. -/
theorem quoted_congr {ob ob' : Orderbook}
    (h : ∀ q, ob.quotes q = ob'.quotes q) (side : Side) :
    ob.quoted side = ob'.quoted side := by
  ext p
  have hp : ∀ q, ob.sizeAt side p q = ob'.sizeAt side p q :=
    fun q => congrFun (congrFun (h q) side) p
  simp only [quoted, hp, Set.mem_ofPred_eq]

-- ============================================================= one message

section Apply

variable (ob : Orderbook) (msg : NormalizedOrderbook)

/-- The book as it stands when the best prices are recomputed. -/
private def changed : Orderbook :=
  ((ob.trackPlatform msg.platform).recordExchangeBbo msg).applyChanges D
    msg

private theorem quoted_changed (side : Side) :
    (changed D ob msg).quoted side = (ob.apply D msg).quoted side :=
  quoted_congr (fun q => (quotes_cleanupEmptyLevels
    (changed D ob msg).recalculateSystemBbo q).symm) side

/-- Pruning leaves live levels. -/
theorem live_apply {side : Side} {p : ℚ} {ps : PlatformSizes}
    (h : ((ob.apply D msg).book side.isBid).get? p = some ps) :
    ps.isEmpty = false := by
  have hretain : ∀ levels : Levels,
      (levels.retain fun sizes => !sizes.isEmpty).get? p = some ps →
        ps.isEmpty = false := by
    intro levels h
    rw [BTreeMap.get?_retain, Option.filter_eq_some_iff] at h
    simpa using h.2
  cases side with
  | buy => exact hretain (changed D ob msg).bids h
  | sell => exact hretain (changed D ob msg).asks h

theorem systemBestBid_apply :
    MaxOf ((ob.apply D msg).quoted .buy)
      ((ob.apply D msg).systemBestBid.map Decimal.val) := by
  have h := (changed D ob msg).bids.maxOf_find?_reverse
    fun e => !e.2.isEmpty
  have hset := quoted_eq_entries (changed D ob msg) .buy
  rw [quoted_changed] at hset
  rw [hset]
  have hbest : (ob.apply D msg).systemBestBid
      = ((changed D ob msg).bids.entries.reverse.find?
          fun e => !e.2.isEmpty).map (·.1) := rfl
  rw [hbest, Option.map_map]
  exact h

theorem systemBestAsk_apply :
    MinOf ((ob.apply D msg).quoted .sell)
      ((ob.apply D msg).systemBestAsk.map Decimal.val) := by
  have h := (changed D ob msg).asks.minOf_find? fun e => !e.2.isEmpty
  have hset := quoted_eq_entries (changed D ob msg) .sell
  rw [quoted_changed] at hset
  rw [hset]
  have hbest : (ob.apply D msg).systemBestAsk
      = ((changed D ob msg).asks.entries.find?
          fun e => !e.2.isEmpty).map (·.1) := rfl
  rw [hbest, Option.map_map]
  exact h

/-- The best bid is the last of the bids that are kept. -/
theorem systemBestBid_apply_eq :
    (ob.apply D msg).systemBestBid
      = (ob.apply D msg).bids.entries.getLast?.map (·.1) := by
  show ((changed D ob msg).bids.entries.reverse.find? _).map _
    = ((changed D ob msg).bids.entries.filter _).getLast?.map _
  rw [List.getLast?_filter]

/-- The best ask is the first of the asks that are kept. -/
theorem systemBestAsk_apply_eq :
    (ob.apply D msg).systemBestAsk
      = (ob.apply D msg).asks.entries.head?.map (·.1) := by
  show ((changed D ob msg).asks.entries.find? _).map _
    = ((changed D ob msg).asks.entries.filter _).head?.map _
  rw [List.head?_filter]

/-- What a message leaves behind, whatever the book was before: no empty
level, and best prices that are the best quoted. -/
structure Orderbook.Settled (ob : Orderbook) : Prop where
  live : ∀ (side : Side) p ps,
    (ob.book side.isBid).get? p = some ps → ps.isEmpty = false
  bestBid : MaxOf (ob.quoted .buy) (ob.systemBestBid.map Decimal.val)
  bestAsk : MinOf (ob.quoted .sell) (ob.systemBestAsk.map Decimal.val)

theorem settled_apply : (ob.apply D msg).Settled where
  live _ _ _ h := live_apply D ob msg h
  bestBid := systemBestBid_apply D ob msg
  bestAsk := systemBestAsk_apply D ob msg

theorem Orderbook.Valid.settled {ob : Orderbook} (h : ob.Valid) :
    ob.Settled where
  live := h.live
  bestBid := h.bestBid
  bestAsk := h.bestAsk

theorem mem_platforms_apply {q : String} :
    q ∈ (ob.apply D msg).platforms
      ↔ q = msg.platform ∨ q ∈ ob.platforms := by
  rw [platforms_apply]
  split
  next h =>
    constructor
    · exact Or.inr
    · intro hq
      rcases hq with rfl | hq
      · exact h
      · exact hq
  next => rw [List.mem_append, List.mem_singleton, or_comm]

theorem lookup_exchangeBestBid_apply (q : String) :
    (ob.apply D msg).exchangeBestBid.lookup q
      = if msg.platform = q then
          msg.bestBid.or (ob.exchangeBestBid.lookup q)
        else ob.exchangeBestBid.lookup q := by
  rw [exchangeBestBid_apply]
  cases msg.bestBid with
  | none => simp
  | some bid =>
      simp only [HashMap.lookup_insert', Option.some_or,
        eq_comm (a := q)]

theorem lookup_exchangeBestAsk_apply (q : String) :
    (ob.apply D msg).exchangeBestAsk.lookup q
      = if msg.platform = q then
          msg.bestAsk.or (ob.exchangeBestAsk.lookup q)
        else ob.exchangeBestAsk.lookup q := by
  rw [exchangeBestAsk_apply]
  cases msg.bestAsk with
  | none => simp
  | some ask =>
      simp only [HashMap.lookup_insert', Option.some_or,
        eq_comm (a := q)]

end Apply

-- ============================================================ preservation

/-- No quote of zero size. -/
def Quotes.Nonzero (f : Quotes) : Prop :=
  ∀ side p size, f side p = some size → size.isZero = false

namespace Quotes

theorem Nonzero.set {f : Quotes} (h : f.Nonzero) (side : Side) (p : ℚ)
    {v : Option Decimal} (hv : ∀ size, v = some size → size.isZero = false) :
    (f.set side p v).Nonzero := by
  intro s r size hsize
  unfold Quotes.set at hsize
  split at hsize
  · exact hv size hsize
  · exact h s r size hsize

theorem Nonzero.setLevel {f : Quotes} (h : f.Nonzero) (side : Side)
    (level : PriceLevel) : (f.setLevel D side level).Nonzero := by
  unfold Quotes.setLevel
  split
  next price size _ _ =>
    cases hz : size.isZero with
    | true => exact h
    | false =>
        refine h.set side price.val fun s hs => ?_
        rw [← Option.some.inj hs, hz]
  next => exact h

theorem Nonzero.setUpdate {f : Quotes} (h : f.Nonzero)
    (u : OrderbookUpdate) : (f.setUpdate D u).Nonzero := by
  unfold Quotes.setUpdate
  split
  next price size _ _ =>
    refine h.set u.side price.val fun s hs => ?_
    cases hz : size.isZero with
    | true => simp [hz] at hs
    | false =>
        rw [hz] at hs
        rw [← Option.some.inj hs, hz]
  next => exact h

private theorem Nonzero.foldl {ι : Type} {step : Quotes → ι → Quotes}
    (hstep : ∀ f i, f.Nonzero → (step f i).Nonzero) {f : Quotes}
    (h : f.Nonzero) (is : List ι) : (is.foldl step f).Nonzero := by
  induction is generalizing f with
  | nil => exact h
  | cons i is ih => exact ih (hstep f i h)

theorem Nonzero.step {f : Quotes} (h : f.Nonzero) (q : String)
    (msg : NormalizedOrderbook) : (f.step D q msg).Nonzero := by
  unfold Quotes.step
  split
  · have hnone : Quotes.none.Nonzero := fun _ _ _ h => nomatch h
    cases msg.messageType with
    | snapshot =>
        exact Nonzero.foldl (fun f l h => h.setLevel D .sell l)
          (Nonzero.foldl (fun f l h => h.setLevel D .buy l) hnone _) _
    | delta => exact Nonzero.foldl (fun f u h => h.setUpdate D u) h _
  · exact h

end Quotes

theorem valid_new (clobTokenId marketId : String) :
    (Orderbook.new clobTokenId marketId).Valid where
  live side p ps h := by cases side <;> cases h
  nonzero side p q size h := by cases side <;> cases h
  bestBid := by
    show _ = ∅
    rw [quoted_eq_entries]
    exact Set.eq_empty_of_forall_notMem fun r hr => by
      obtain ⟨e, he, -⟩ := hr
      cases he
  bestAsk := by
    show _ = ∅
    rw [quoted_eq_entries]
    exact Set.eq_empty_of_forall_notMem fun r hr => by
      obtain ⟨e, he, -⟩ := hr
      cases he
  nodup := List.nodup_nil
  tracked side p q h := by cases side <;> cases h
  reported q h := by rcases h with h | h <;> cases h

/-- Every message keeps the invariant. -/
theorem Orderbook.Valid.apply {ob : Orderbook} (h : ob.Valid)
    (msg : NormalizedOrderbook) : (ob.apply D msg).Valid where
  live _ _ _ hps := live_apply D ob msg hps
  nonzero side p q := by
    have hq : (ob.quotes q).Nonzero := fun s r => h.nonzero s r q
    have hstep := hq.step D q msg
    rw [← quotes_apply] at hstep
    exact hstep side p
  bestBid := systemBestBid_apply D ob msg
  bestAsk := systemBestAsk_apply D ob msg
  nodup := by
    rw [platforms_apply]
    split
    next => exact h.nodup
    next hnew =>
      refine List.nodup_append.2 ⟨h.nodup, List.nodup_singleton _, ?_⟩
      intro a ha b hb hab
      rw [List.mem_singleton] at hb
      exact hnew (hb ▸ hab ▸ ha)
  tracked side p q hq := by
    rw [mem_platforms_apply]
    by_cases hp : msg.platform = q
    · exact Or.inl hp.symm
    · -- another platform's message leaves the quotes of `q`
      have hquotes := quotes_apply D ob msg q
      rw [Quotes.step, if_neg hp] at hquotes
      have hsame : (ob.apply D msg).sizeAt side p q
          = ob.sizeAt side p q := congrFun (congrFun hquotes side) p
      rw [hsame] at hq
      exact Or.inr (h.tracked side p q hq)
  reported q hq := by
    rw [mem_platforms_apply]
    by_cases hp : msg.platform = q
    · exact Or.inl hp.symm
    · rw [lookup_exchangeBestBid_apply, lookup_exchangeBestAsk_apply,
        if_neg hp, if_neg hp] at hq
      exact Or.inr (h.reported q hq)

/-- In a book without empty levels the quoted prices are the stored
ones. -/
theorem Orderbook.Valid.mem_quoted_iff {ob : Orderbook} (h : ob.Valid)
    {side : Side} {p : ℚ} :
    p ∈ ob.quoted side ↔ ((ob.book side.isBid).get? p).isSome = true := by
  unfold quoted sizeAt
  rw [Set.mem_ofPred_eq]
  cases hps : (ob.book side.isBid).get? p with
  | none => simp
  | some ps =>
      have hlive := PlatformSizes.isEmpty_eq_false_iff.1
        (h.live side p ps hps)
      exact iff_of_true hlive rfl

/-- Every reachable book satisfies the invariant. -/
theorem valid_foldl_apply {ob : Orderbook} (h : ob.Valid)
    (msgs : List NormalizedOrderbook) :
    (msgs.foldl (Orderbook.apply D) ob).Valid := by
  induction msgs generalizing ob with
  | nil => exact h
  | cons msg msgs ih => exact ih (h.apply D msg)

/-- The best prices of a reachable book are the outermost stored keys. -/
theorem systemBest_foldl_apply (clobTokenId marketId : String)
    (msgs : List NormalizedOrderbook) :
    let ob := msgs.foldl (Orderbook.apply D) (.new clobTokenId marketId)
    ob.systemBestBid = ob.bids.entries.getLast?.map (·.1)
      ∧ ob.systemBestAsk = ob.asks.entries.head?.map (·.1) := by
  induction msgs using List.reverseRecOn with
  | nil => exact ⟨rfl, rfl⟩
  | append_singleton msgs msg _ =>
      rw [List.foldl_append]
      exact ⟨systemBestBid_apply_eq D _ msg, systemBestAsk_apply_eq D _ msg⟩

/-- A stored size at a stored level. -/
theorem sizeAt_eq_of_mem {ob : Orderbook} {side : Side}
    {e : Decimal × PlatformSizes}
    (he : e ∈ (ob.book side.isBid).entries) (q : String) :
    ob.sizeAt side e.1.val q = e.2.get q := by
  have hget := BTreeMap.get?_eq_some_iff.2 ⟨e.1, he, rfl⟩
  rw [sizeAt, hget, Option.bind_some]

/-- What holds of a book after any run of messages from the empty one. No
stored level is empty and no stored size zero. The best bid is the
greatest stored bid price and the best ask the least stored ask price,
each absent exactly when its side has no level. The platforms are listed
once each, and whoever quotes at some level or reported a best price is
among them. The counter has counted the messages, in 64 bits. -/
theorem book_invariant (clobTokenId marketId : String)
    (msgs : List NormalizedOrderbook) :
    let ob := msgs.foldl (Orderbook.apply D) (.new clobTokenId marketId)
    (∀ side : Side, ∀ e ∈ (ob.book side.isBid).entries,
        e.2.isEmpty = false
          ∧ ∀ s ∈ e.2.iter, s.2.isZero = false ∧ s.1 ∈ ob.platforms)
      ∧ (ob.systemBestBid = none ↔ ob.bids.entries = [])
      ∧ (∀ bid, ob.systemBestBid = some bid →
          (∃ ps, (bid, ps) ∈ ob.bids.entries)
            ∧ ∀ e ∈ ob.bids.entries, e.1.val ≤ bid.val)
      ∧ (ob.systemBestAsk = none ↔ ob.asks.entries = [])
      ∧ (∀ ask, ob.systemBestAsk = some ask →
          (∃ ps, (ask, ps) ∈ ob.asks.entries)
            ∧ ∀ e ∈ ob.asks.entries, ask.val ≤ e.1.val)
      ∧ ob.platforms.Nodup
      ∧ (∀ q, (ob.exchangeBestBid.lookup q).isSome = true
          ∨ (ob.exchangeBestAsk.lookup q).isSome = true →
        q ∈ ob.platforms)
      ∧ ob.updateCount.toNat = msgs.length % 2 ^ 64 := by
  intro ob
  have hvalid : ob.Valid := valid_foldl_apply D (valid_new ..) msgs
  obtain ⟨hbid, hask⟩ := systemBest_foldl_apply D clobTokenId marketId msgs
  refine ⟨fun side e he => ⟨?_, fun s hs => ?_⟩, ?_, fun bid h => ?_, ?_,
    fun ask h => ?_, hvalid.nodup, hvalid.reported, ?_⟩
  · exact hvalid.live side e.1.val e.2
      (BTreeMap.get?_eq_some_iff.2 ⟨e.1, he, rfl⟩)
  · have hsize : ob.sizeAt side e.1.val s.1 = some s.2 := by
      rw [sizeAt_eq_of_mem he]
      exact PlatformSizes.mem_iter.1 hs
    refine ⟨hvalid.nonzero side e.1.val s.1 s.2 hsize,
      hvalid.tracked side e.1.val s.1 ?_⟩
    rw [hsize]
    rfl
  · rw [hbid, Option.map_eq_none_iff, List.getLast?_eq_none_iff]
  · rw [hbid, Option.map_eq_some_iff] at h
    obtain ⟨e, he, rfl⟩ := h
    exact ⟨⟨e.2, List.mem_of_getLast? he⟩,
      fun e' he' => BTreeMap.le_of_getLast? he he'⟩
  · rw [hask, Option.map_eq_none_iff, List.head?_eq_none_iff]
  · rw [hask, Option.map_eq_some_iff] at h
    obtain ⟨e, he, rfl⟩ := h
    exact ⟨⟨e.2, List.mem_of_head? he⟩,
      fun e' he' => BTreeMap.le_of_head? he he'⟩
  · have hcount : ob.updateCount = UInt64.ofNat msgs.length :=
      (updateCount_foldl_apply D _ msgs).trans (zero_add _)
    rw [hcount, UInt64.toNat_ofNat']

-- =============================================================== the store

/-- A store of valid books. -/
def OrderbookStore.BooksValid (store : OrderbookStore) : Prop :=
  ∀ m a ob, store.bookAt m a = some ob → ob.Valid

theorem booksValid_new : OrderbookStore.new.BooksValid := by
  intro m a ob hob
  cases hob

theorem OrderbookStore.BooksValid.apply {store : OrderbookStore}
    (h : store.BooksValid) (msg : NormalizedOrderbook) :
    (store.apply D msg).BooksValid := by
  intro m a ob hob
  rw [bookAt_apply] at hob
  split at hob
  · obtain rfl := Option.some.inj hob
    cases hbefore : store.bookAt m a with
    | none => exact (valid_new a m).apply D msg
    | some ob => exact (h m a ob hbefore).apply D msg
  · exact h m a ob hob

/-- The books of every run are valid. -/
theorem booksValid_runStore (msgs : List NormalizedOrderbook) :
    (runStore D msgs).BooksValid := by
  have hrun : ∀ store : OrderbookStore, store.BooksValid →
      (msgs.foldl (OrderbookStore.apply D) store).BooksValid := by
    induction msgs with
    | nil => intro store h; exact h
    | cons msg msgs ih => intro store h; exact ih _ (h.apply D msg)
  exact hrun _ booksValid_new

end Wup
