/-
Grouping a price change message by asset loses nothing.

Each output is the delta of one asset (`groupedDelta`): the asset's
changes in wire order, with the best prices of the last of them. At most
one output is a book's own (`ownMessages_outputs`), and the book's own
messages among the one-change messages are its changes one by one
(`ownMessages_singles`). So the comparison is made inside one book: the
quotes are moved by the same updates, batched or not, the best prices
reported last are the same, and whatever is derived from the quotes is
the same after any message (`Orderbook.Settled`). The book may be any.

Prices are compared by value, as the crate compares them. The text a
level is stored under can differ: a level emptied and quoted again within
the message keeps its first spelling in the batch.
-/
import Wup.Normalizer.Adapter
import Wup.Orderbook.Proofs.Feeds

namespace Wup.Normalizer

open Orderbook

variable (D : RustDecimal)

-- ============================================================= the outputs

/-- The delta of one asset of a message. -/
def groupedDelta (msg : RawPriceChangeMessage) (normalizedAt a : String) :
    NormalizedOrderbook :=
  let changes := changesOf msg.priceChanges a
  { platform := PolymarketAdapter.name
    clobTokenId := a
    marketId := msg.market
    messageType := .delta
    bids := none
    asks := none
    updates := some (changes.map RawPriceChange.toUpdate)
    bestBid := some ((changes.getLast?.map (·.bestBid)).getD "")
    bestAsk := some ((changes.getLast?.map (·.bestAsk)).getD "")
    exchangeTimestamp := msg.timestamp
    receivedAt := msg.receivedAt
    normalizedAt := normalizedAt }

section Outputs

variable (order : GroupOrder) (msg : RawPriceChangeMessage)
  (normalizedAt : String)

/-- The outputs are the deltas of the groups, in the groups' order. -/
theorem transformPriceChange_eq :
    transformPriceChange order msg normalizedAt
      = (order.entries (groupChanges msg.priceChanges).1).map fun e =>
          groupedDelta msg normalizedAt e.1 := by
  refine List.map_congr_left fun ⟨a, changes⟩ he => ?_
  have hgroup : (groupChanges msg.priceChanges).1.lookup a
      = some changes := order.mem_entries.1 he
  rw [lookup_grouped] at hgroup
  split at hgroup
  · cases hgroup
  · obtain rfl := Option.some.inj hgroup.symm
    have hbest := lookup_bestPrices msg.priceChanges a
    unfold groupChanges at hbest
    simp only [groupedDelta, hbest]
    cases (changesOf msg.priceChanges a).getLast? <;> rfl

theorem clobTokenIds_transformPriceChange :
    (transformPriceChange order msg normalizedAt).map (·.clobTokenId)
      = (order.entries (groupChanges msg.priceChanges).1).map (·.1) := by
  rw [transformPriceChange_eq, List.map_map]
  rfl

/-- The assets of the outputs are the ones the message has a change
of. -/
theorem mem_clobTokenIds {a : String} :
    a ∈ (transformPriceChange order msg normalizedAt).map (·.clobTokenId)
      ↔ ∃ c ∈ msg.priceChanges, c.assetId = a := by
  have hnil : changesOf msg.priceChanges a = []
      ↔ ¬ ∃ c ∈ msg.priceChanges, c.assetId = a := by
    simp [changesOf, List.filter_eq_nil_iff]
  rw [clobTokenIds_transformPriceChange, List.mem_map]
  refine ⟨fun h => ?_, fun h => ?_⟩
  · obtain ⟨⟨_, changes⟩, he, rfl⟩ := h
    have hgroup := order.mem_entries.1 he
    rw [lookup_grouped] at hgroup
    split at hgroup
    · cases hgroup
    · next hne => exact not_not.1 (hnil.not.1 hne)
  · refine ⟨(a, changesOf msg.priceChanges a), ?_, rfl⟩
    rw [order.mem_entries, lookup_grouped, if_neg]
    exact hnil.not.2 (not_not.2 h)

/-- One output at most belongs to a book, its asset's. -/
theorem ownMessages_outputs (m a : String) :
    ownMessages (m, a) (transformPriceChange order msg normalizedAt)
      = if msg.market = m ∧ changesOf msg.priceChanges a ≠ [] then
          [groupedDelta msg normalizedAt a]
        else [] := by
  rw [ownMessages, transformPriceChange_eq, List.filter_map]
  by_cases hm : msg.market = m
  · have hkey : ∀ e : String × List RawPriceChange,
        ((fun o => decide (NormalizedOrderbook.key o = (m, a)))
          ∘ fun e => groupedDelta msg normalizedAt e.1) e
            = decide (e.1 = a) := by
      intro e
      simp [groupedDelta, NormalizedOrderbook.key, hm]
    rw [List.filter_congr fun e _ => hkey e, order.filter_entries,
      lookup_grouped]
    by_cases hnil : changesOf msg.priceChanges a = []
    · simp [hnil]
    · simp [hm, hnil]
  · rw [if_neg fun h => hm h.1, List.map_eq_nil_iff,
      List.filter_eq_nil_iff]
    intro e _ hkey
    simp only [groupedDelta, NormalizedOrderbook.key, Function.comp_apply,
      decide_eq_true_eq, Prod.mk.injEq] at hkey
    exact hm hkey.1

end Outputs

/-- A message with one of the changes only. -/
def RawPriceChangeMessage.only (msg : RawPriceChangeMessage)
    (c : RawPriceChange) : RawPriceChangeMessage :=
  { msg with priceChanges := [c] }

/-- Every change transformed as a message of its own, in wire order. -/
def transformSingles (order : GroupOrder) (msg : RawPriceChangeMessage)
    (normalizedAt : String) : List NormalizedOrderbook :=
  msg.priceChanges.flatMap fun c =>
    transformPriceChange order (msg.only c) normalizedAt

/-- A book's own one-change messages are its changes one by one. -/
theorem ownMessages_singles (order : GroupOrder)
    (msg : RawPriceChangeMessage) (normalizedAt m a : String) :
    ownMessages (m, a) (transformSingles order msg normalizedAt)
      = if msg.market = m then
          (changesOf msg.priceChanges a).map fun c =>
            groupedDelta (msg.only c) normalizedAt a
        else [] := by
  have hone : ∀ c, ownMessages (m, a)
      (transformPriceChange order (msg.only c) normalizedAt)
      = if msg.market = m ∧ c.assetId = a then
          [groupedDelta (msg.only c) normalizedAt a]
        else [] := by
    intro c
    rw [ownMessages_outputs]
    by_cases hc : c.assetId = a <;>
      simp [RawPriceChangeMessage.only, changesOf, hc]
  have hall : ∀ cs : List RawPriceChange,
      ownMessages (m, a) (cs.flatMap fun c =>
        transformPriceChange order (msg.only c) normalizedAt)
        = if msg.market = m then
            (changesOf cs a).map fun c =>
              groupedDelta (msg.only c) normalizedAt a
          else [] := by
    intro cs
    induction cs with
    | nil => simp [ownMessages, changesOf]
    | cons c cs ih =>
        unfold ownMessages at ih hone ⊢
        rw [List.flatMap_cons, List.filter_append, ih, hone]
        by_cases hm : msg.market = m
        · by_cases hc : c.assetId = a <;> simp [changesOf, hm, hc]
        · simp [hm]
  exact hall msg.priceChanges

-- ================================================================ one book

/-- Two books with the same bids and asks, the same system best prices
and the same reported best prices. -/
structure SamePrices (ob ob' : Orderbook) : Prop where
  levels : ∀ (side : Side) p,
    ((ob.book side.isBid).get? p).map PlatformSizes.get
      = ((ob'.book side.isBid).get? p).map PlatformSizes.get
  systemBestBid :
    ob.systemBestBid.map Decimal.val = ob'.systemBestBid.map Decimal.val
  systemBestAsk :
    ob.systemBestAsk.map Decimal.val = ob'.systemBestAsk.map Decimal.val
  exchangeBestBid : ∀ q,
    ob.exchangeBestBid.lookup q = ob'.exchangeBestBid.lookup q
  exchangeBestAsk : ∀ q,
    ob.exchangeBestAsk.lookup q = ob'.exchangeBestAsk.lookup q

theorem SamePrices.refl (ob : Orderbook) : SamePrices ob ob :=
  ⟨fun _ _ => rfl, rfl, rfl, fun _ => rfl, fun _ => rfl⟩

section Book

variable (msg : RawPriceChangeMessage) (normalizedAt a : String)

/-- What the changes of an asset do to the quotes, one by one. -/
theorem quotes_singles (q : String) (f : Quotes)
    (cs : List RawPriceChange) (hcs : ∀ c ∈ cs, c.assetId = a) :
    (cs.map fun c => groupedDelta (msg.only c) normalizedAt a).foldl
        (Quotes.step D q) f
      = if PolymarketAdapter.name = q then
          cs.foldl (fun f c => f.setUpdate D c.toUpdate) f
        else f := by
  induction cs generalizing f with
  | nil => simp
  | cons c cs ih =>
      have hc : changesOf [c] a = [c] := by
        simp [changesOf, hcs c (List.mem_cons_self ..)]
      rw [List.map_cons, List.foldl_cons,
        ih _ fun c hc => hcs c (List.mem_cons_of_mem _ hc)]
      by_cases hq : PolymarketAdapter.name = q
      · simp [Quotes.step, groupedDelta, RawPriceChangeMessage.only, hc,
          hq]
      · simp [Quotes.step, groupedDelta, hq]

/-- And all at once. -/
theorem quotes_groupedDelta (q : String) (f : Quotes) :
    f.step D q (groupedDelta msg normalizedAt a)
      = if PolymarketAdapter.name = q then
          (changesOf msg.priceChanges a).foldl
            (fun f c => f.setUpdate D c.toUpdate) f
        else f := by
  simp [Quotes.step, groupedDelta, List.foldl_map]

/-- The price reported last stays, one by one as all at once. -/
theorem reported_singles (pick : NormalizedOrderbook → Option String)
    (f : RawPriceChange → String) {cs : List RawPriceChange}
    (hcs : cs ≠ [])
    (hpick : ∀ c ∈ cs,
      pick (groupedDelta (msg.only c) normalizedAt a) = some (f c))
    (q : String) (o : Option String) :
    ((cs.map fun c => groupedDelta (msg.only c) normalizedAt a).filter
        fun o => o.platform = q).foldl (fun o msg => (pick msg).or o) o
      = if PolymarketAdapter.name = q then
          (some ((cs.getLast?.map f).getD "")).or o
        else o := by
  have hplatform : ∀ c,
      (groupedDelta (msg.only c) normalizedAt a).platform
        = PolymarketAdapter.name := fun _ => rfl
  obtain ⟨init, c, rfl⟩ := (List.eq_nil_or_concat' cs).resolve_left hcs
  have hlast := hpick c (by simp)
  by_cases hq : PolymarketAdapter.name = q
  · simp [List.filter_map, Function.comp_def, hplatform, hq, hlast]
  · simp [List.filter_map, Function.comp_def, hplatform, hq]

variable {msg a}

/-- The deltas of an asset, one by one or in one batch, leave the same
book, whatever it was before. -/
theorem samePrices_singles (ob : Orderbook)
    (hcs : changesOf msg.priceChanges a ≠ []) :
    SamePrices (ob.apply D (groupedDelta msg normalizedAt a))
      (((changesOf msg.priceChanges a).map fun c =>
        groupedDelta (msg.only c) normalizedAt a).foldl
          (Orderbook.apply D) ob) := by
  have hasset : ∀ c ∈ changesOf msg.priceChanges a, c.assetId = a :=
    fun c hc => of_decide_eq_true (List.mem_filter.1 hc).2
  have honly : ∀ c ∈ changesOf msg.priceChanges a,
      changesOf (msg.only c).priceChanges a = [c] := by
    intro c hc
    simp [RawPriceChangeMessage.only, changesOf, hasset c hc]
  generalize hbatch : groupedDelta msg normalizedAt a = batch
  generalize hsingles : (changesOf msg.priceChanges a).map (fun c =>
    groupedDelta (msg.only c) normalizedAt a) = singles
  -- the books settle with the last message of each run
  have hsettled : (singles.foldl (Orderbook.apply D) ob).Settled := by
    have hne : singles ≠ [] := by simpa [← hsingles] using hcs
    obtain ⟨init, last, rfl⟩ :=
      (List.eq_nil_or_concat' singles).resolve_left hne
    rw [List.foldl_append]
    exact settled_apply D _ last
  obtain ⟨hlevels, hbid, hask, -⟩ :=
    sameBook_of_quotes (settled_apply D ob batch) hsettled fun q => by
      rw [quotes_apply, quotes_foldl_apply, ← hbatch, ← hsingles,
        quotes_groupedDelta, quotes_singles D msg normalizedAt a q _ _
          hasset]
  refine ⟨hlevels, hbid, hask, fun q => ?_, fun q => ?_⟩
  · rw [lookup_exchangeBestBid_apply, (exchangeBbo_foldl_filter D ob _ q).1,
      ← hbatch, ← hsingles, reported_singles msg normalizedAt a
        NormalizedOrderbook.bestBid RawPriceChange.bestBid hcs
        fun c hc => by simp [groupedDelta, honly c hc]]
    rfl
  · rw [lookup_exchangeBestAsk_apply, (exchangeBbo_foldl_filter D ob _ q).2,
      ← hbatch, ← hsingles, reported_singles msg normalizedAt a
        NormalizedOrderbook.bestAsk RawPriceChange.bestAsk hcs
        fun c hc => by simp [groupedDelta, honly c hc]]
    rfl

end Book

-- =============================================================== the store

/-- Grouping loses nothing. Whatever order the groups come in, the outputs
are of different assets, there is one for each asset with a change, and
its updates are the asset's changes in wire order. Applied to any store
they leave every book with the prices that the changes leave when each is
transformed as a message of its own, in wire order. -/
theorem grouping_loses_nothing (order order' : GroupOrder)
    (msg : RawPriceChangeMessage) (normalizedAt : String)
    (store : OrderbookStore) :
    let outputs := transformPriceChange order msg normalizedAt
    let singles := transformSingles order' msg normalizedAt
    (outputs.map (·.clobTokenId)).Nodup
      ∧ (∀ a, a ∈ outputs.map (·.clobTokenId)
          ↔ ∃ c ∈ msg.priceChanges, c.assetId = a)
      ∧ (∀ o ∈ outputs, o.updates
          = some ((changesOf msg.priceChanges o.clobTokenId).map
              RawPriceChange.toUpdate))
      ∧ ∀ m a, Option.Rel SamePrices
          ((outputs.foldl (OrderbookStore.apply D) store).bookAt m a)
          ((singles.foldl (OrderbookStore.apply D) store).bookAt m a) := by
  intro outputs singles
  refine ⟨?_, fun a => mem_clobTokenIds order msg normalizedAt,
    fun o ho => ?_, fun m a => ?_⟩
  · show (List.map _ (transformPriceChange ..)).Nodup
    rw [clobTokenIds_transformPriceChange]
    exact order.nodup_keys _
  · have ho : o ∈ transformPriceChange order msg normalizedAt := ho
    rw [transformPriceChange_eq] at ho
    obtain ⟨e, -, rfl⟩ := List.mem_map.1 ho
    rfl
  · rw [OrderbookStore.bookAt_foldl_apply,
      OrderbookStore.bookAt_foldl_apply, ownMessages_outputs,
      ownMessages_singles]
    by_cases hm : msg.market = m
    · by_cases hcs : changesOf msg.priceChanges a = []
      · simp only [hcs, ne_eq, not_true_eq_false, and_false, if_false,
          List.map_nil, ite_self, if_true]
        cases store.bookAt m a with
        | none => exact Option.Rel.none
        | some ob => exact Option.Rel.some (.refl ob)
      · simp only [hm, hcs, ne_eq, not_false_eq_true, and_self, if_true,
          List.cons_ne_nil, List.map_eq_nil_iff, if_false]
        exact Option.Rel.some
          (samePrices_singles D normalizedAt _ hcs)
    · simp only [hm, false_and, if_false, if_true]
      cases store.bookAt m a with
      | none => exact Option.Rel.none
      | some ob => exact Option.Rel.some (.refl ob)

end Wup.Normalizer
