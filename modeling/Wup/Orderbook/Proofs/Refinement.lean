/-
The book refines the flat last-writer map.

`quotes_apply` is the step: whatever the book, the quotes of `q` after a
message are `Quotes.step` of its quotes before. It needs no invariant of
the book, because the reader `sizeAt` cannot see an empty level:
clearing a platform from a level, pruning an empty one and recomputing
the best prices are all invisible or exactly the reference's own move.
The run theorem is the induction over it.

Everything of a book but its two maps (`rest`) is framed: the price
level changes of a message leave it alone (`rest_applyChanges`), so each
other field moves as the one line of `apply` that mentions it.
-/
import Wup.Orderbook.Quotes

namespace Wup

open Orderbook

variable (D : RustDecimal)

-- =============================================================== the sides

@[simp] theorem book_modifyBook (ob : Orderbook) (b b' : Bool)
    (f : Levels → Levels) :
    (ob.modifyBook b f).book b' = if b' = b then f (ob.book b')
      else ob.book b' := by
  cases b <;> cases b' <;> rfl

/-- Setting one platform's size in a level's entry. -/
theorem quotes_modifyBook_set (ob : Orderbook) (side : Side)
    (price size : Decimal) (platform q : String) :
    (ob.modifyBook side.isBid fun book =>
        book.upsert price fun ps =>
          (ps.getD .new).set platform size).quotes q
      = if platform = q then
          (ob.quotes q).set side price.val
            (if size.isZero then none else some size)
        else ob.quotes q := by
  funext s p
  unfold Orderbook.quotes Orderbook.sizeAt
  rw [book_modifyBook]
  by_cases hs : s = side
  · subst hs
    rw [if_pos rfl, BTreeMap.get?_upsert]
    by_cases hp : price.val = p
    · subst hp
      cases hg : (ob.book s.isBid).get? price.val with
      | none =>
          by_cases hq : platform = q
          · simp [Quotes.set, hq]
          · simp [hg, hq, Ne.symm hq]
      | some ps =>
          by_cases hq : platform = q
          · simp [Quotes.set, hq]
          · simp [hg, hq, Ne.symm hq]
    · by_cases hq : platform = q
      · simp [Quotes.set, hp, hq, Ne.symm hp]
      · simp [hp, hq]
  · have hb : ¬ s.isBid = side.isBid := fun h => hs (Side.isBid_inj.1 h)
    rw [if_neg hb]
    by_cases hq : platform = q
    · simp [Quotes.set, hs, hq]
    · simp [hq]

-- ============================================================= one message

theorem quotes_insertLevelPlatform (ob : Orderbook) (side : Side)
    (level : PriceLevel) (platform q : String) :
    (ob.insertLevelPlatform D level.price level.size side.isBid
        platform).quotes q
      = if platform = q then (ob.quotes q).setLevel D side level
        else ob.quotes q := by
  unfold insertLevelPlatform Quotes.setLevel
  cases D.fromStr level.price with
  | none => exact (ite_self _).symm
  | some price =>
      cases D.fromStr level.size with
      | none => exact (ite_self _).symm
      | some size =>
          have hset := quotes_modifyBook_set ob side price size platform q
          cases hz : size.isZero with
          | true => simp [hz]
          | false =>
              rw [hz] at hset
              simpa [hz] using hset

theorem quotes_applyUpdatePlatform (ob : Orderbook) (u : OrderbookUpdate)
    (platform q : String) :
    (ob.applyUpdatePlatform D u platform).quotes q
      = if platform = q then (ob.quotes q).setUpdate D u
        else ob.quotes q := by
  unfold applyUpdatePlatform Quotes.setUpdate
  cases D.fromStr u.price with
  | none => exact (ite_self _).symm
  | some price =>
      cases D.fromStr u.size with
      | none => exact (ite_self _).symm
      | some size => exact quotes_modifyBook_set ob u.side price size _ _

/-- A fold of per-platform steps moves platform `q` by its own fold, and
only when the platform is `q`. -/
private theorem quotes_foldl {ι : Type} (step : Orderbook → ι → Orderbook)
    (step' : Quotes → ι → Quotes) (platform q : String)
    (h : ∀ ob i, (step ob i).quotes q
      = if platform = q then step' (ob.quotes q) i else ob.quotes q)
    (ob : Orderbook) (is : List ι) :
    (is.foldl step ob).quotes q
      = if platform = q then is.foldl step' (ob.quotes q)
        else ob.quotes q := by
  induction is generalizing ob with
  | nil => exact (ite_self _).symm
  | cons i is ih =>
      rw [List.foldl_cons, ih, h]
      by_cases hq : platform = q
      · rw [if_pos hq, if_pos hq, if_pos hq, List.foldl_cons]
      · rw [if_neg hq, if_neg hq, if_neg hq]

/-- Clearing a platform from every level forgets what it quotes. -/
theorem quotes_clear (ob : Orderbook) (platform q : String) :
    ({ ob with
        bids := ob.bids.mapValues (·.clearPlatform platform)
        asks := ob.asks.mapValues (·.clearPlatform platform) }
      : Orderbook).quotes q
      = if platform = q then Quotes.none else ob.quotes q := by
  funext side p
  have hread : ∀ levels : Levels,
      ((levels.mapValues (·.clearPlatform platform)).get? p).bind
          (fun ps => ps.get q)
        = if platform = q then none
          else (levels.get? p).bind fun ps => ps.get q := by
    intro levels
    rw [BTreeMap.get?_mapValues]
    cases levels.get? p with
    | none => exact (ite_self _).symm
    | some ps =>
        by_cases hq : platform = q
        · simp [hq]
        · simp [hq, Ne.symm hq]
  by_cases hq : platform = q
  · simp only [if_pos hq] at hread ⊢
    cases side with
    | buy => exact hread ob.bids
    | sell => exact hread ob.asks
  · simp only [if_neg hq] at hread ⊢
    cases side with
    | buy => exact hread ob.bids
    | sell => exact hread ob.asks

theorem quotes_applyChanges (ob : Orderbook) (msg : NormalizedOrderbook)
    (q : String) :
    (ob.applyChanges D msg).quotes q = (ob.quotes q).step D q msg := by
  unfold applyChanges Quotes.step
  cases msg.messageType with
  | snapshot =>
      have hlevels := fun (side : Side) =>
        quotes_foldl (fun ob (level : PriceLevel) =>
            ob.insertLevelPlatform D level.price level.size side.isBid
              msg.platform)
          (Quotes.setLevel D side) msg.platform q
          (fun ob l =>
            quotes_insertLevelPlatform D ob side l msg.platform q)
      have hbids := hlevels .buy
      have hasks := hlevels .sell
      simp only [Side.isBid] at hbids hasks
      simp only [applySnapshotPlatform]
      rw [hasks, hbids, quotes_clear]
      by_cases hq : msg.platform = q
      · simp only [if_pos hq]
      · simp only [if_neg hq]
  | delta =>
      exact quotes_foldl _ (Quotes.setUpdate D) msg.platform q
        (fun ob u => quotes_applyUpdatePlatform D ob u msg.platform q) ob _

/-- Pruning is invisible: an empty level quotes nothing. -/
theorem quotes_cleanupEmptyLevels (ob : Orderbook) (q : String) :
    ob.cleanupEmptyLevels.quotes q = ob.quotes q := by
  funext side p
  have hread : ∀ levels : Levels,
      ((levels.retain fun sizes => !sizes.isEmpty).get? p).bind
          (fun ps => ps.get q)
        = (levels.get? p).bind fun ps => ps.get q := by
    intro levels
    rw [BTreeMap.get?_retain]
    cases levels.get? p with
    | none => rfl
    | some ps =>
        cases he : ps.isEmpty with
        | true =>
            have hq := PlatformSizes.isEmpty_iff.1 he q
            simp [Option.filter, he, hq]
        | false => simp [Option.filter, he]
  cases side with
  | buy => exact hread ob.bids
  | sell => exact hread ob.asks

/-- The quotes of `q` move by the reference step, in any book. -/
theorem quotes_apply (ob : Orderbook) (msg : NormalizedOrderbook)
    (q : String) :
    (ob.apply D msg).quotes q = (ob.quotes q).step D q msg := by
  have hpre : ((ob.trackPlatform msg.platform).recordExchangeBbo
      msg).quotes q = ob.quotes q := by
    unfold trackPlatform
    split
    · rfl
    · rfl
  calc (ob.apply D msg).quotes q
      = ((((ob.trackPlatform msg.platform).recordExchangeBbo
          msg).applyChanges D
            msg).recalculateSystemBbo.cleanupEmptyLevels).quotes q := rfl
    _ = (((ob.trackPlatform msg.platform).recordExchangeBbo
          msg).applyChanges D msg).recalculateSystemBbo.quotes q :=
        quotes_cleanupEmptyLevels _ q
    _ = (((ob.trackPlatform msg.platform).recordExchangeBbo
          msg).applyChanges D msg).quotes q := rfl
    _ = (ob.quotes q).step D q msg := by rw [quotes_applyChanges, hpre]

-- =============================================================== the frame

/-- Everything of a book but its levels. -/
def Orderbook.rest (ob : Orderbook) : Orderbook :=
  { ob with bids := .empty _ _, asks := .empty _ _ }

theorem rest_modifyBook (ob : Orderbook) (b : Bool) (f : Levels → Levels) :
    (ob.modifyBook b f).rest = ob.rest := by
  cases b <;> rfl

theorem rest_insertLevelPlatform (ob : Orderbook)
    (priceStr sizeStr : String) (b : Bool) (platform : String) :
    (ob.insertLevelPlatform D priceStr sizeStr b platform).rest
      = ob.rest := by
  unfold insertLevelPlatform
  cases D.fromStr priceStr with
  | none => rfl
  | some price =>
      cases D.fromStr sizeStr with
      | none => rfl
      | some size =>
          cases hz : size.isZero with
          | true => simp [hz]
          | false => simpa [hz] using rest_modifyBook ob b _

theorem rest_applyUpdatePlatform (ob : Orderbook) (u : OrderbookUpdate)
    (platform : String) :
    (ob.applyUpdatePlatform D u platform).rest = ob.rest := by
  unfold applyUpdatePlatform
  cases D.fromStr u.price with
  | none => rfl
  | some price =>
      cases D.fromStr u.size with
      | none => rfl
      | some size => exact rest_modifyBook ob _ _

/-- The price level changes of a message touch the levels only. -/
theorem rest_applyChanges (ob : Orderbook) (msg : NormalizedOrderbook) :
    (ob.applyChanges D msg).rest = ob.rest := by
  unfold applyChanges
  cases msg.messageType with
  | snapshot =>
      have hlevels : ∀ b (levels : List PriceLevel) (ob : Orderbook),
          (levels.foldl (fun ob level => ob.insertLevelPlatform D
            level.price level.size b msg.platform) ob).rest
            = ob.rest := fun b levels =>
        foldl_frame rest fun ob level _ =>
          rest_insertLevelPlatform D ob level.price level.size b
            msg.platform
      simp only [applySnapshotPlatform]
      rw [hlevels false, hlevels true]
      rfl
  | delta =>
      exact foldl_frame rest (fun ob u _ =>
        rest_applyUpdatePlatform D ob u msg.platform) ob

theorem trackPlatform_frame (ob : Orderbook) (platform : String) :
    ob.trackPlatform platform
      = { ob with platforms :=
          if platform ∈ ob.platforms then ob.platforms
          else ob.platforms ++ [platform] } := by
  unfold trackPlatform
  split
  · rfl
  · rfl

section Fields

variable (ob : Orderbook) (msg : NormalizedOrderbook)

/-- What a message does to a book besides its levels. -/
theorem rest_apply :
    (ob.apply D msg).rest
      = { (((ob.trackPlatform msg.platform).recordExchangeBbo msg).rest)
          with
          systemBestBid := (ob.apply D msg).systemBestBid
          systemBestAsk := (ob.apply D msg).systemBestAsk
          lastExchangeTimestamp := msg.exchangeTimestamp
          lastReceivedAt := msg.receivedAt
          updateCount := ob.updateCount + 1 } := by
  have h := rest_applyChanges D
    ((ob.trackPlatform msg.platform).recordExchangeBbo msg) msg
  have hcount : ((ob.trackPlatform msg.platform).recordExchangeBbo
      msg).rest.updateCount = ob.updateCount := by
    rw [trackPlatform_frame]
    rfl
  rw [← hcount, ← h]
  rfl

@[simp] theorem updateCount_apply :
    (ob.apply D msg).updateCount = ob.updateCount + 1 :=
  congrArg Orderbook.updateCount (rest_apply D ob msg)

@[simp] theorem clobTokenId_apply :
    (ob.apply D msg).clobTokenId = ob.clobTokenId := by
  have h := congrArg Orderbook.clobTokenId (rest_apply D ob msg)
  rw [trackPlatform_frame] at h
  exact h

@[simp] theorem marketId_apply :
    (ob.apply D msg).marketId = ob.marketId := by
  have h := congrArg Orderbook.marketId (rest_apply D ob msg)
  rw [trackPlatform_frame] at h
  exact h

theorem platforms_apply :
    (ob.apply D msg).platforms
      = if msg.platform ∈ ob.platforms then ob.platforms
        else ob.platforms ++ [msg.platform] := by
  have h := congrArg Orderbook.platforms (rest_apply D ob msg)
  rw [trackPlatform_frame] at h
  exact h

theorem exchangeBestBid_apply :
    (ob.apply D msg).exchangeBestBid
      = match msg.bestBid with
        | some bid => ob.exchangeBestBid.insert msg.platform bid
        | none => ob.exchangeBestBid := by
  have h := congrArg Orderbook.exchangeBestBid (rest_apply D ob msg)
  rw [trackPlatform_frame] at h
  exact h

theorem exchangeBestAsk_apply :
    (ob.apply D msg).exchangeBestAsk
      = match msg.bestAsk with
        | some ask => ob.exchangeBestAsk.insert msg.platform ask
        | none => ob.exchangeBestAsk := by
  have h := congrArg Orderbook.exchangeBestAsk (rest_apply D ob msg)
  rw [trackPlatform_frame] at h
  exact h

end Fields

-- ================================================================= the run

theorem quotes_foldl_apply (ob : Orderbook)
    (msgs : List NormalizedOrderbook) (q : String) :
    (msgs.foldl (Orderbook.apply D) ob).quotes q
      = msgs.foldl (Quotes.step D q) (ob.quotes q) := by
  induction msgs generalizing ob with
  | nil => rfl
  | cons msg msgs ih => rw [List.foldl_cons, ih, quotes_apply]; rfl

/-- The book is the flat last-writer map: over any run from the empty
book, the size held for any platform at any side and price is the one
the reference fold computes. -/
theorem apply_refines_lastWriter (clobTokenId marketId : String)
    (msgs : List NormalizedOrderbook) (q : String) (side : Side) (p : ℚ) :
    (msgs.foldl (Orderbook.apply D)
        (Orderbook.new clobTokenId marketId)).sizeAt side p q
      = msgs.foldl (Quotes.step D q) Quotes.none side p := by
  have hnew : (Orderbook.new clobTokenId marketId).quotes q
      = Quotes.none := by
    funext s r
    cases s <;> rfl
  have hrun := quotes_foldl_apply D (Orderbook.new clobTokenId marketId)
    msgs q
  rw [hnew] at hrun
  exact congrFun (congrFun hrun side) p

end Wup
