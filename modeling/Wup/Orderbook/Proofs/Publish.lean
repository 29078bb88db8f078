/-
What the change events are worth to a replica.

The readings of an event are the reported book at the listed keys
(`readings_publishChange`), so an event is always faithful; whether it
covers the move is a question about the apply alone. A delta touches
nothing but the keys it lists (`view_apply_delta`), and a replica
follows any run of deltas. A snapshot also clears its platform wherever
it quoted before (`aggregated_apply_snapshot`), and the keys it does not
list again are exactly the ones a replica misses.
-/
import Wup.Orderbook.Aggregated
import Wup.Orderbook.Proofs.Family

namespace Wup

open Orderbook ChangeFeed

variable (D : RustDecimal)

-- =============================================================== the sides

/-- Whether an order side is the bids'. -/
def OrderSide.isBid : OrderSide → Bool
  | .buy => true
  | .sell => false

@[simp] theorem OrderSide.isBid_toOrderSide (s : Side) :
    s.toOrderSide.isBid = s.isBid := by
  cases s <;> rfl

theorem OrderSide.isBid_inj {s t : OrderSide} :
    s.isBid = t.isBid ↔ s = t := by
  cases s <;> cases t <;> decide

theorem levels_eq_book (ob : Orderbook) (s : OrderSide) :
    ob.levels s = ob.book s.isBid := by
  cases s <;> rfl

theorem mem_listedKeys {D : RustDecimal} {msg : NormalizedOrderbook}
    {s : OrderSide} {p : ℚ} :
    (s, p) ∈ listedKeys D msg
      ↔ ∃ t, (t, s) ∈ affectedPrices msg ∧ D.num t = some p := by
  unfold listedKeys
  rw [List.mem_filterMap]
  refine ⟨fun h => ?_, fun h => ?_⟩
  · obtain ⟨⟨t, s'⟩, he, hk⟩ := h
    obtain ⟨p', hp, hkp⟩ := Option.map_eq_some_iff.1 hk
    cases hkp
    exact ⟨t, he, hp⟩
  · obtain ⟨t, he, hp⟩ := h
    exact ⟨(t, s), he, by simp [hp]⟩

-- ======================================================= what is untouched

section Untouched

variable {b : Bool} {p : ℚ}

/-- Nor by an update. -/
theorem find_applyUpdatePlatform {ob : Orderbook} {u : OrderbookUpdate}
    {platform : String} (h : b = u.side.isBid → D.num u.price ≠ some p) :
    ((ob.applyUpdatePlatform D u platform).book b).find p
      = (ob.book b).find p := by
  unfold applyUpdatePlatform
  unfold RustDecimal.num at h
  cases hp : D.fromStr u.price with
  | none => rfl
  | some price =>
      cases D.fromStr u.size with
      | none => rfl
      | some size =>
          simp only
          rw [book_modifyBook]
          by_cases hb : b = u.side.isBid
          · have hne : ¬ price.val = p := by simpa [hp] using h hb
            rw [if_pos hb, BTreeMap.find_upsert, if_neg hne]
          · rw [if_neg hb]

end Untouched

section Changes

variable {msg : NormalizedOrderbook} {k : LevelKey}

/-- A delta leaves the levels it does not list. -/
theorem find_applyChanges_delta (h : msg.messageType = .delta)
    (hk : k ∉ listedKeys D msg) (ob : Orderbook) :
    ((ob.applyChanges D msg).levels k.1).find k.2
      = (ob.levels k.1).find k.2 := by
  rw [levels_eq_book, levels_eq_book, applyChanges, h]
  refine foldl_frame (fun ob => (ob.book k.1.isBid).find k.2)
    (fun ob u hu => ?_) ob
  refine find_applyUpdatePlatform D fun hb hp => hk ?_
  refine mem_listedKeys.2 ⟨u.price, ?_, hp⟩
  rw [← OrderSide.isBid_toOrderSide, OrderSide.isBid_inj] at hb
  rw [affectedPrices, h, hb]
  exact List.mem_map_of_mem hu

end Changes

-- ============================================================= one message

section Apply

variable (ob : Orderbook) (msg : NormalizedOrderbook)

/-- The levels before they change. -/
private theorem levels_pre (s : OrderSide) :
    ((ob.trackPlatform msg.platform).recordExchangeBbo msg).levels s
      = ob.levels s := by
  rw [trackPlatform_frame]
  cases s <;> rfl

/-- What a message leaves at a key: the changed level, if anybody quotes
there. -/
theorem levelAt_apply (k : LevelKey) :
    (ob.apply D msg).levelAt k
      = ((((ob.trackPlatform msg.platform).recordExchangeBbo
          msg).applyChanges D msg).levelAt k).filter fun ps =>
            !ps.isEmpty := by
  have hretain : ∀ levels : Levels,
      (levels.retain fun sizes => !sizes.isEmpty).get? k.2
        = (levels.get? k.2).filter fun ps => !ps.isEmpty :=
    fun levels => levels.get?_retain _ k.2
  obtain ⟨s, p⟩ := k
  cases s with
  | buy => exact hretain _
  | sell => exact hretain _

variable {view : PlatformSizes → Option AggLevel}
  (hview : ∀ {ps : PlatformSizes}, ps.isEmpty = true → view ps = none)

include hview in
/-- Pruning does not show in a view without empty levels. -/
private theorem bind_filter_view (o : Option PlatformSizes) :
    (o.filter fun ps => !ps.isEmpty).bind view = o.bind view := by
  cases o with
  | none => rfl
  | some ps =>
      cases he : ps.isEmpty with
      | true => simp [Option.filter, he, hview he]
      | false => simp [Option.filter, he]

variable {msg} {k : LevelKey}

include hview in
/-- A delta moves such a view of a book at the keys it lists only. -/
theorem view_apply_delta (h : msg.messageType = .delta)
    (hk : k ∉ listedKeys D msg) :
    ((ob.apply D msg).levelAt k).bind view = (ob.levelAt k).bind view := by
  rw [levelAt_apply, bind_filter_view hview]
  unfold Orderbook.levelAt BTreeMap.get?
  rw [find_applyChanges_delta D h hk, levels_pre]

end Apply

namespace OrderbookStore

/-- A missing book is an empty one. -/
theorem levelAt_eq_getD (store : OrderbookStore) (m a : String)
    (k : LevelKey) :
    store.levelAt m a k
      = ((store.bookAt m a).getD (.new a m)).levelAt k := by
  unfold levelAt
  cases store.bookAt m a with
  | none => obtain ⟨s, p⟩ := k; cases s <;> rfl
  | some ob => rfl

/-- A message moves the levels of its own asset by its own apply. -/
theorem levelAt_apply_own (store : OrderbookStore)
    (msg : NormalizedOrderbook) (k : LevelKey) :
    (store.apply D msg).levelAt msg.marketId msg.clobTokenId k
      = (((store.bookAt msg.marketId msg.clobTokenId).getD
          (.new msg.clobTokenId msg.marketId)).apply D msg).levelAt k := by
  have hkey : msg.key = (msg.marketId, msg.clobTokenId) := rfl
  rw [levelAt_eq_getD, bookAt_apply, if_pos hkey, Option.getD_some]

/-- So does the reported one, on the book of the asset. -/
theorem reported_congr {D : RustDecimal} {store store' : OrderbookStore}
    {m a : String} (h : store.bookAt m a = store'.bookAt m a) :
    store.reported D m a = store'.reported D m a := by
  funext k
  simp only [reported, levelAt, h]

end OrderbookStore

section Publishes

variable {D : RustDecimal} (store : OrderbookStore)
  {msg : NormalizedOrderbook}

/-- Every reading is what stands in the store. -/
theorem faithful_publishChange (hD : D.Lawful) {now : Int}
    {c : LevelKey × Option AggLevel}
    (h : c ∈ (publishChange D store msg now).2.readings D) :
    c.2 = store.reported D msg.marketId msg.clobTokenId c.1 := by
  rw [readings_publishChange hD] at h
  obtain ⟨k, -, hk⟩ := List.mem_map.1 h
  rw [← hk]

/-- The keys of the readings are the listed ones. -/
theorem keys_publishChange (hD : D.Lawful) (now : Int) :
    ((publishChange D store msg now).2.readings D).map (·.1)
      = listedKeys D msg := by
  rw [readings_publishChange hD, List.map_map]
  exact List.map_id _

/-- The event of a delta tells the whole move. -/
theorem covers_delta (h : msg.messageType = .delta) {k : LevelKey}
    (hne : store.aggregated msg.marketId msg.clobTokenId k
      ≠ (store.apply D msg).aggregated msg.marketId msg.clobTokenId k) :
    k ∈ listedKeys D msg := by
  by_contra hk
  refine hne ?_
  unfold OrderbookStore.aggregated
  rw [OrderbookStore.levelAt_apply_own, view_apply_delta D _
    PlatformSizes.aggregated_eq_none_iff.2 h hk,
    ← OrderbookStore.levelAt_eq_getD]

theorem covers_delta_reported (h : msg.messageType = .delta)
    {k : LevelKey}
    (hne : store.reported D msg.marketId msg.clobTokenId k
      ≠ (store.apply D msg).reported D msg.marketId msg.clobTokenId k) :
    k ∈ listedKeys D msg := by
  by_contra hk
  refine hne ?_
  unfold OrderbookStore.reported
  rw [OrderbookStore.levelAt_apply_own, view_apply_delta D _
    (PlatformSizes.reported_eq_none_iff D).2 h hk,
    ← OrderbookStore.levelAt_eq_getD]

end Publishes

end Wup
