/-
A snapshot is the reported book at the moment it was read.

The response lists every level somebody quotes, and says of each what
stands there; so what a client makes of it out of nothing is the book the
store reports (`book_get`). It also carries the ids of the book, which
are those it is stored under.
-/
import Wup.Gateway.System
import Wup.Orderbook.Proofs.Replication

namespace Wup

open ChangeFeed

variable {D : RustDecimal}

-- ======================================================= the ids of a book

/-- Books are stored under their own ids. -/
def OrderbookStore.Keyed (store : OrderbookStore) : Prop :=
  ∀ m a ob, store.bookAt m a = some ob →
    ob.marketId = m ∧ ob.clobTokenId = a

theorem OrderbookStore.Keyed.apply {store : OrderbookStore}
    (h : store.Keyed) (msg : NormalizedOrderbook) :
    (store.apply D msg).Keyed := by
  intro m a ob hob
  rw [bookAt_apply] at hob
  split at hob
  · obtain rfl := Option.some.inj hob
    rw [marketId_apply, clobTokenId_apply]
    cases hbefore : store.bookAt m a with
    | none => exact ⟨rfl, rfl⟩
    | some ob => exact h m a ob hbefore
  · exact h m a ob hob

theorem keyed_runStore (msgs : List NormalizedOrderbook) :
    (runStore D msgs).Keyed := by
  have hrun : ∀ store : OrderbookStore, store.Keyed →
      (msgs.foldl (OrderbookStore.apply D) store).Keyed := by
    induction msgs with
    | nil => intro store h; exact h
    | cons msg msgs ih => intro store h; exact ih _ (h.apply msg)
  exact hrun _ fun m a ob hob => (nomatch hob)

namespace Gateway

-- ============================================================ the response

theorem readPriceLevel_aggregated (hD : D.Lawful) (side : OrderSide)
    (price : Decimal) (sizes : PlatformSizes) :
    readPriceLevel D side (aggregatedPriceLevel D price sizes)
      = some ((side, price.val), sizes.reported D) := by
  unfold readPriceLevel aggregatedPriceLevel
  rw [hD.num_toString, readLevel_iter hD]
  rfl

/-- The readings of one side of a response. -/
theorem readings_topLevels (hD : D.Lawful) (side : OrderSide)
    (walk : List (Decimal × PlatformSizes)) :
    ((topLevels walk none).map fun e =>
        aggregatedPriceLevel D e.1 e.2).filterMap (readPriceLevel D side)
      = (walk.filter fun e => !e.2.isEmpty).map fun e =>
          ((side, e.1.val), e.2.reported D) := by
  unfold topLevels
  rw [List.filterMap_map, ← List.filterMap_eq_map]
  refine List.filterMap_congr fun e _ => ?_
  exact readPriceLevel_aggregated hD side e.1 e.2

/-- What a response says: each level somebody quotes, once. -/
theorem mem_readings_response (hD : D.Lawful) (ob : Orderbook)
    (metadata : ResponseMetadata) (now : Int)
    {c : LevelKey × Option AggLevel} :
    c ∈ ((OrderbookHttpResponse.ofResponse
        (ob.toResponse D none metadata)).toOrderbookData now).readings D
      ↔ ∃ price sizes, (price, sizes) ∈ (ob.levels c.1.1).entries
          ∧ sizes.isEmpty = false ∧ price.val = c.1.2
          ∧ sizes.reported D = c.2 := by
  show c ∈ (ob.topBidsWithPlatforms D none).filterMap _
    ++ (ob.topAsksWithPlatforms D none).filterMap _ ↔ _
  unfold Orderbook.topBidsWithPlatforms Orderbook.topAsksWithPlatforms
  rw [readings_topLevels hD, readings_topLevels hD, List.mem_append]
  obtain ⟨⟨side, p⟩, level⟩ := c
  have hside : ∀ (walk : List (Decimal × PlatformSizes)) (s : OrderSide),
      ((side, p), level) ∈ (walk.filter fun e => !e.2.isEmpty).map
          (fun e => ((s, e.1.val), e.2.reported D))
        ↔ s = side ∧ ∃ price sizes, (price, sizes) ∈ walk
            ∧ sizes.isEmpty = false ∧ price.val = p
            ∧ sizes.reported D = level := by
    intro walk s
    rw [List.mem_map]
    refine ⟨fun h => ?_, fun h => ?_⟩
    · obtain ⟨⟨price, sizes⟩, he, heq⟩ := h
      cases heq
      rw [List.mem_filter] at he
      exact ⟨rfl, price, sizes, he.1, by simpa using he.2, rfl, rfl⟩
    · obtain ⟨rfl, price, sizes, he, hempty, rfl, rfl⟩ := h
      exact ⟨(price, sizes), List.mem_filter.2 ⟨he, by simp [hempty]⟩,
        rfl⟩
  rw [hside, hside]
  cases side with
  | buy => simp [Orderbook.levels]
  | sell => simp [Orderbook.levels]

/-- Out of nothing, the response says the whole reported book. -/
theorem publishes_response (hD : D.Lawful) (ob : Orderbook)
    (metadata : ResponseMetadata) (now : Int) :
    Publishes (((OrderbookHttpResponse.ofResponse
        (ob.toResponse D none metadata)).toOrderbookData now).readings D)
      (fun _ => none)
      (fun k => (ob.levelAt k).bind (PlatformSizes.reported D)) := by
  refine ⟨fun c hc => ?_, fun k hne => ?_⟩
  · obtain ⟨price, sizes, he, -, hval, hlevel⟩ :=
      (mem_readings_response hD ob metadata now).1 hc
    have hget : ob.levelAt c.1 = some sizes :=
      BTreeMap.get?_eq_some_iff.2 ⟨price, he, hval⟩
    show c.2 = (ob.levelAt c.1).bind _
    rw [hget, Option.bind_some, hlevel]
  · obtain ⟨sizes, hget⟩ : ∃ sizes, ob.levelAt k = some sizes := by
      cases h : ob.levelAt k with
      | none => simp [h] at hne
      | some sizes => exact ⟨sizes, rfl⟩
    obtain ⟨price, he, hval⟩ := BTreeMap.get?_eq_some_iff.1 hget
    have hempty : sizes.isEmpty = false := by
      rw [← Bool.not_eq_true, ← PlatformSizes.reported_eq_none_iff D]
      simpa [hget] using Ne.symm hne
    exact List.mem_map.2 ⟨(k, sizes.reported D),
      (mem_readings_response hD ob metadata now).2
        ⟨price, sizes, he, hempty, hval, rfl⟩, rfl⟩

/-- The book a client makes of a response is the one that was read. -/
theorem book_get (hD : D.Lawful) {store : OrderbookStore}
    {m a : String} {response : OrderbookResponse}
    (h : store.get D m a none = some response) (now : Int) :
    ((OrderbookHttpResponse.ofResponse response).toOrderbookData
        now).book D = store.reported D m a := by
  obtain ⟨ob, hob, rfl⟩ := Option.map_eq_some_iff.1 h
  rw [OrderbookData.book, (publishes_response hD ob _ now).patch_eq]
  funext k
  simp [OrderbookStore.reported, OrderbookStore.levelAt, hob]

/-- A response carries the ids it was asked for. -/
theorem ids_get {store : OrderbookStore} (hkeyed : store.Keyed)
    {m a : String} {response : OrderbookResponse}
    (h : store.get D m a none = some response) :
    response.marketId = m ∧ response.assetId = a := by
  obtain ⟨ob, hob, rfl⟩ := Option.map_eq_some_iff.1 h
  exact hkeyed m a ob hob

end Gateway

end Wup
