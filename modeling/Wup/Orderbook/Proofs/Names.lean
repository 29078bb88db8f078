/-
When a price level has one name on the wire.

A stored key never changes while its level stands: an update keeps the
key of the entry it finds, clearing a platform keeps the entry, and only
pruning drops it (`keyAt_apply`). So within a lifetime the response
always prints the same key, and the names agree exactly when every event
agrees with the stored key at its own step, which is `Spelled`
(`one_name_iff_spelled`).
-/
import Wup.Orderbook.Names
import Wup.Orderbook.Proofs.Invariant
import Wup.Orderbook.Proofs.Publish

namespace Wup

open Orderbook

variable {D : RustDecimal}

-- ========================================================== the stored key

/-- A key slot either keeps what it has or, empty, takes a decimal of
`S`. -/
def KeyFrom (S : Set Decimal) (o o' : Option Decimal) : Prop :=
  o' = o ∨ o = none ∧ ∃ d ∈ S, o' = some d

theorem KeyFrom.trans {S : Set Decimal} {o o' o'' : Option Decimal}
    (h : KeyFrom S o o') (h' : KeyFrom S o' o'') : KeyFrom S o o'' := by
  rcases h with rfl | ⟨ho, d, hd, ho'⟩
  · exact h'
  · rcases h' with rfl | ⟨hnone, -⟩
    · exact Or.inr ⟨ho, d, hd, ho'⟩
    · rw [hnone] at ho'
      cases ho'

/-- An update fills an empty slot with its own key only. -/
theorem keyFrom_upsert (m : Levels) (price : Decimal)
    (f : Option PlatformSizes → PlatformSizes) {S : Set Decimal} {p : ℚ}
    (hS : price.val = p → price ∈ S) :
    KeyFrom S (m.getKey? p) ((m.upsert price f).getKey? p) := by
  rw [BTreeMap.getKey?_upsert]
  by_cases hp : price.val = p
  · rw [if_pos hp]
    cases m.getKey? p with
    | none => exact Or.inr ⟨rfl, price, hS hp, rfl⟩
    | some k => exact Or.inl rfl
  · rw [if_neg hp]
    exact Or.inl rfl

private theorem keyFrom_modifyBook (ob : Orderbook) {b b' : Bool}
    (price : Decimal) (f : Option PlatformSizes → PlatformSizes)
    {S : Set Decimal} {p : ℚ} (hS : b = b' → price.val = p → price ∈ S) :
    KeyFrom S ((ob.book b).getKey? p)
      (((ob.modifyBook b' fun book => book.upsert price f).book b).getKey?
        p) := by
  rw [book_modifyBook]
  by_cases hb : b = b'
  · rw [if_pos hb]
    exact keyFrom_upsert _ price f (hS hb)
  · rw [if_neg hb]
    exact Or.inl rfl

theorem keyFrom_insertLevelPlatform (ob : Orderbook) {b b' : Bool}
    {t size platform : String} {S : Set Decimal} {p : ℚ}
    (hS : b = b' → ∀ d, D.fromStr t = some d → d.val = p → d ∈ S) :
    KeyFrom S ((ob.book b).getKey? p)
      (((ob.insertLevelPlatform D t size b' platform).book b).getKey?
        p) := by
  unfold insertLevelPlatform
  cases hp : D.fromStr t with
  | none => exact Or.inl rfl
  | some price =>
      cases D.fromStr size with
      | none => exact Or.inl rfl
      | some size =>
          cases hz : size.isZero with
          | true =>
              simp only [hz, Bool.not_true, Bool.false_eq_true, if_false]
              exact Or.inl rfl
          | false =>
              simp only [hz, Bool.not_false, if_true]
              exact keyFrom_modifyBook ob price _
                fun hb => hS hb price hp

theorem keyFrom_applyUpdatePlatform (ob : Orderbook) {b : Bool}
    {u : OrderbookUpdate} {platform : String} {S : Set Decimal} {p : ℚ}
    (hS : b = u.side.isBid →
      ∀ d, D.fromStr u.price = some d → d.val = p → d ∈ S) :
    KeyFrom S ((ob.book b).getKey? p)
      (((ob.applyUpdatePlatform D u platform).book b).getKey? p) := by
  unfold applyUpdatePlatform
  cases hp : D.fromStr u.price with
  | none => exact Or.inl rfl
  | some price =>
      cases D.fromStr u.size with
      | none => exact Or.inl rfl
      | some size =>
          exact keyFrom_modifyBook ob price _ fun hb => hS hb price hp

private theorem keyFrom_foldl {ι : Type} {b : Bool} {p : ℚ}
    {S : Set Decimal} {step : Orderbook → ι → Orderbook} {is : List ι}
    (h : ∀ ob, ∀ i ∈ is, KeyFrom S ((ob.book b).getKey? p)
      (((step ob i).book b).getKey? p)) (ob : Orderbook) :
    KeyFrom S ((ob.book b).getKey? p)
      (((is.foldl step ob).book b).getKey? p) := by
  induction is generalizing ob with
  | nil => exact Or.inl rfl
  | cons i is ih =>
      exact (h ob i (List.mem_cons_self ..)).trans
        (ih (fun ob j hj => h ob j (List.mem_cons_of_mem _ hj)) _)

/-- The decimals a message lists for a level. -/
def listedDecimals (D : RustDecimal) (msg : NormalizedOrderbook)
    (side : Side) (p : ℚ) : Set Decimal :=
  {d | ∃ t ∈ listedTexts D msg side p, D.fromStr t = some d}

theorem mem_listedTexts {msg : NormalizedOrderbook} {side : Side} {p : ℚ}
    {t : String} :
    t ∈ listedTexts D msg side p
      ↔ (t, side.toOrderSide) ∈ affectedPrices msg
        ∧ D.num t = some p := by
  unfold listedTexts
  rw [List.mem_map]
  refine ⟨fun h => ?_, fun h => ?_⟩
  · obtain ⟨⟨t', s⟩, he, rfl⟩ := h
    obtain ⟨hmem, hp⟩ := List.mem_filter.1 he
    obtain ⟨rfl, hnum⟩ := of_decide_eq_true hp
    exact ⟨hmem, hnum⟩
  · exact ⟨(t, side.toOrderSide),
      List.mem_filter.2 ⟨h.1, decide_eq_true ⟨rfl, h.2⟩⟩, rfl⟩

private theorem mem_listedDecimals {msg : NormalizedOrderbook}
    {side : Side} {p : ℚ} {t : String}
    (h : (t, side.toOrderSide) ∈ affectedPrices msg) {d : Decimal}
    (hd : D.fromStr t = some d) (hp : d.val = p) :
    d ∈ listedDecimals D msg side p :=
  ⟨t, mem_listedTexts.2 ⟨h, by rw [RustDecimal.num, hd, ← hp]; rfl⟩, hd⟩

/-- The changes of a message keep the key of a level that is there. -/
theorem keyFrom_applyChanges (ob : Orderbook) (msg : NormalizedOrderbook)
    (side : Side) (p : ℚ) :
    KeyFrom (listedDecimals D msg side p)
      ((ob.book side.isBid).getKey? p)
      (((ob.applyChanges D msg).book side.isBid).getKey? p) := by
  unfold applyChanges
  cases htype : msg.messageType with
  | delta =>
      refine keyFrom_foldl (fun ob u hu => ?_) ob
      refine keyFrom_applyUpdatePlatform ob fun hb d hd hp => ?_
      refine mem_listedDecimals ?_ hd hp
      rw [affectedPrices, htype, Side.isBid_inj.1 hb]
      exact List.mem_map_of_mem hu
  | snapshot =>
      have hlist : ∀ (s : Side) (ls : List PriceLevel),
          (∀ l ∈ ls, (l.price, s.toOrderSide) ∈ affectedPrices msg) →
          ∀ ob : Orderbook,
          KeyFrom (listedDecimals D msg side p)
            ((ob.book side.isBid).getKey? p)
            (((ls.foldl (fun ob level => ob.insertLevelPlatform D
              level.price level.size s.isBid msg.platform) ob).book
                side.isBid).getKey? p) := by
        intro s ls hls ob
        refine keyFrom_foldl (fun ob l hl => ?_) ob
        refine keyFrom_insertLevelPlatform ob fun hb d hd hp => ?_
        exact mem_listedDecimals (Side.isBid_inj.1 hb ▸ hls l hl) hd hp
      have hbids := hlist .buy (msg.bids.getD []) fun l hl => by
        rw [affectedPrices, htype]
        exact List.mem_append_left _ (List.mem_map_of_mem hl)
      have hasks := hlist .sell (msg.asks.getD []) fun l hl => by
        rw [affectedPrices, htype]
        exact List.mem_append_right _ (List.mem_map_of_mem hl)
      refine KeyFrom.trans (Or.inl ?_) ((hbids _).trans (hasks _))
      cases side with
      | buy =>
          exact ob.bids.getKey?_mapValues (·.clearPlatform msg.platform) p
      | sell =>
          exact ob.asks.getKey?_mapValues (·.clearPlatform msg.platform) p

/-- So does the whole message, unless it prunes the level. -/
theorem keyFrom_apply (ob : Orderbook) (msg : NormalizedOrderbook)
    (side : Side) {p : ℚ} {key : Decimal}
    (h : ((ob.apply D msg).book side.isBid).getKey? p = some key) :
    KeyFrom (listedDecimals D msg side p)
      ((ob.book side.isBid).getKey? p) (some key) := by
  have hstep := keyFrom_applyChanges (D := D)
    ((ob.trackPlatform msg.platform).recordExchangeBbo msg) msg side p
  have hpre : ((ob.trackPlatform msg.platform).recordExchangeBbo
      msg).book side.isBid = ob.book side.isBid := by
    rw [trackPlatform_frame]
    cases side <;> rfl
  have hretain : ∀ levels : Levels,
      (levels.retain fun sizes => !sizes.isEmpty).getKey? p = some key →
        levels.getKey? p = some key := by
    intro levels h
    rw [BTreeMap.getKey?_retain] at h
    split at h
    · exact h
    · cases h
  rw [hpre] at hstep
  have hkey : ((((ob.trackPlatform msg.platform).recordExchangeBbo
      msg).applyChanges D msg).book side.isBid).getKey? p = some key := by
    cases side with
    | buy => exact hretain _ h
    | sell => exact hretain _ h
  rwa [hkey] at hstep

-- =============================================================== the store

section Store

variable {store : OrderbookStore} {msg : NormalizedOrderbook}
  {side : Side} {p : ℚ}

theorem keyAt_eq_getD (store : OrderbookStore) (m a : String)
    (side : Side) (p : ℚ) :
    store.keyAt m a side p
      = ((((store.bookAt m a).getD (.new a m)).book side.isBid).getKey?
          p) := by
  unfold OrderbookStore.keyAt
  cases store.bookAt m a with
  | none => cases side <;> rfl
  | some ob => rfl

/-- A message of another asset leaves the key. -/
theorem keyAt_apply_of_ne {m a : String} (h : msg.key ≠ (m, a)) :
    (store.apply D msg).keyAt m a side p = store.keyAt m a side p := by
  unfold OrderbookStore.keyAt
  rw [OrderbookStore.bookAt_apply, if_neg h]

private theorem keyAt_apply_own :
    (store.apply D msg).keyAt msg.marketId msg.clobTokenId side p
      = ((((store.bookAt msg.marketId msg.clobTokenId).getD
          (.new msg.clobTokenId msg.marketId)).apply D msg).book
            side.isBid).getKey? p := by
  have hkey : msg.key = (msg.marketId, msg.clobTokenId) := rfl
  rw [keyAt_eq_getD, OrderbookStore.bookAt_apply, if_pos hkey,
    Option.getD_some]

/-- A stored key after a message is the one before, or new and listed. -/
theorem keyAt_apply {key : Decimal}
    (h : (store.apply D msg).keyAt msg.marketId msg.clobTokenId side p
      = some key) :
    store.keyAt msg.marketId msg.clobTokenId side p = some key
      ∨ store.keyAt msg.marketId msg.clobTokenId side p = none
        ∧ ∃ t ∈ listedTexts D msg side p, D.fromStr t = some key := by
  rw [keyAt_apply_own] at h
  rw [keyAt_eq_getD]
  rcases keyFrom_apply _ _ _ h with hsame | ⟨hnone, d, hd, hkey⟩
  · exact Or.inl hsame.symm
  · obtain rfl := Option.some.inj hkey
    exact Or.inr ⟨hnone, hd⟩

/-- The level stands after a message exactly when the reference says
somebody quotes there. -/
theorem isSome_keyAt_apply (h : store.BooksValid)
    (msg : NormalizedOrderbook) (side : Side) (p : ℚ) :
    ((store.apply D msg).keyAt msg.marketId msg.clobTokenId side
        p).isSome = true
      ↔ QuotedAfter D store msg side p := by
  rw [keyAt_apply_own]
  unfold QuotedAfter
  have hvalid : ((store.bookAt msg.marketId msg.clobTokenId).getD
      (.new msg.clobTokenId msg.marketId)).Valid := by
    cases hob : store.bookAt msg.marketId msg.clobTokenId with
    | none => exact valid_new _ _
    | some ob => exact h _ _ ob hob
  generalize (store.bookAt msg.marketId msg.clobTokenId).getD
    (.new msg.clobTokenId msg.marketId) = ob at hvalid ⊢
  rw [BTreeMap.isSome_getKey?, ← (hvalid.apply D msg).mem_quoted_iff]
  simp only [← quotes_apply]
  rfl

/-- The full response names a level by its stored key. -/
theorem mem_responseNames (hD : D.Lawful) (h : store.BooksValid)
    {m a t : String} :
    t ∈ responseNames D store m a side p
      ↔ ∃ key, store.keyAt m a side p = some key
        ∧ t = D.toString key := by
  unfold responseNames OrderbookStore.get OrderbookStore.keyAt
  cases hob : store.bookAt m a with
  | none => simp
  | some ob =>
      have hlive := (h m a ob hob).live
      -- the levels of a side, walked in either direction
      have hwalk : ∀ walk : List (Decimal × PlatformSizes),
          (∀ e, e ∈ walk ↔ e ∈ (ob.book side.isBid).entries) →
          (t ∈ (((topLevels walk none).map fun e =>
              aggregatedPriceLevel D e.1 e.2).map (·.price)).filter
                (fun t => D.num t = some p)
            ↔ ∃ key, (ob.book side.isBid).getKey? p = some key
              ∧ t = D.toString key) := by
        intro walk hmem
        simp only [topLevels, List.mem_filter, List.mem_map, hmem,
          decide_eq_true_eq, Bool.not_eq_true']
        refine ⟨fun ht => ?_, fun ht => ?_⟩
        · obtain ⟨⟨_, ⟨e, ⟨he, -⟩, rfl⟩, rfl⟩, hnum⟩ := ht
          have hval : e.1.val = p := Option.some.inj
            ((hD.num_toString e.1).symm.trans hnum)
          exact ⟨e.1, BTreeMap.getKey?_eq_some_iff.2 ⟨e.2, he, hval⟩, rfl⟩
        · obtain ⟨key, hkey, rfl⟩ := ht
          obtain ⟨ps, he, hval⟩ := BTreeMap.getKey?_eq_some_iff.1 hkey
          have hps := hlive side key.val ps
            (BTreeMap.get?_eq_some_iff.2 ⟨key, he, rfl⟩)
          refine ⟨⟨_, ⟨(key, ps), ⟨he, hps⟩, rfl⟩, rfl⟩, ?_⟩
          rw [← hval]
          exact hD.num_toString key
      cases side with
      | buy => exact hwalk _ fun e => List.mem_reverse
      | sell => exact hwalk _ fun e => Iff.rfl

/-- A key is stored exactly where somebody quotes. -/
theorem isSome_keyAt_iff (h : store.BooksValid) {m a : String} :
    (store.keyAt m a side p).isSome = true
      ↔ store.aggregated m a (side.toOrderSide, p) ≠ none := by
  rw [Ne, OrderbookStore.aggregated_eq_none_iff]
  unfold OrderbookStore.keyAt OrderbookStore.levelAt Orderbook.levelAt
  cases hob : store.bookAt m a with
  | none => simp
  | some ob =>
      simp only [Option.bind_some, levels_eq_book,
        OrderSide.isBid_toOrderSide, BTreeMap.isSome_getKey?]
      cases hps : (ob.book side.isBid).get? p with
      | none => simp
      | some ps => simp [(h m a ob hob).live side p ps hps]

/-- The price text of a change for a listed text: the decimal as printed
while the level stands, the text itself when it is gone. -/
theorem price_levelChange (hD : D.Lawful) (h : store.BooksValid)
    (m a t : String) (side : Side) (p : ℚ) :
    D.num (levelChange D store m a (t, side.toOrderSide)).price = D.num t
      ∧ (D.num t = some p →
        ((store.keyAt m a side p).isSome = true →
          ∃ d, D.fromStr t = some d
            ∧ (levelChange D store m a (t, side.toOrderSide)).price
              = D.toString d)
        ∧ (store.keyAt m a side p = none →
          (levelChange D store m a (t, side.toOrderSide)).price = t)) := by
  rcases levelChange_cases D store m a t side.toOrderSide with
    ⟨d, ps, hd, hps, he, hc⟩ | ⟨hgone, hc⟩
  · have hnum : D.num t = some d.val := by rw [RustDecimal.num, hd]; rfl
    rw [hc]
    refine ⟨(hD.num_toString d).trans hnum.symm, fun hp =>
      ⟨fun _ => ⟨d, hd, rfl⟩, fun hkey => ?_⟩⟩
    obtain rfl : d.val = p := Option.some.inj (hnum.symm.trans hp)
    have hlive : (store.keyAt m a side d.val).isSome = true := by
      rw [isSome_keyAt_iff h, Ne, OrderbookStore.aggregated_eq_none_iff]
      intro hempty
      rw [hempty ps hps] at he
      cases he
    rw [hkey] at hlive
    cases hlive
  · rw [hc]
    refine ⟨rfl, fun hp => ⟨fun hlive => ?_, fun _ => rfl⟩⟩
    exact absurd (hgone p hp) ((isSome_keyAt_iff h).1 hlive)

/-- An event names a level once for each listed text. -/
theorem mem_eventNames (hD : D.Lawful) (h : store.BooksValid) {now : Int}
    {x : String} :
    x ∈ eventNames D (publishChange D store msg now).2 side p
      ↔ ∃ t ∈ listedTexts D msg side p,
          x = (levelChange D store msg.marketId msg.clobTokenId
            (t, side.toOrderSide)).price := by
  unfold eventNames publishChange
  simp only [List.mem_filter, List.mem_map, decide_eq_true_eq]
  refine ⟨fun hx => ?_, fun hx => ?_⟩
  · obtain ⟨⟨c, ⟨⟨⟨t, s⟩, he, rfl⟩, hside⟩, rfl⟩, hnum⟩ := hx
    rw [side_levelChange] at hside
    obtain rfl : s = side.toOrderSide := hside
    rw [(price_levelChange hD h _ _ t side p).1] at hnum
    exact ⟨t, mem_listedTexts.2 ⟨he, hnum⟩, rfl⟩
  · obtain ⟨t, ht, rfl⟩ := hx
    obtain ⟨he, hnum⟩ := mem_listedTexts.1 ht
    refine ⟨⟨_, ⟨⟨(t, side.toOrderSide), he, rfl⟩,
      side_levelChange ..⟩, rfl⟩, ?_⟩
    rw [(price_levelChange hD h _ _ t side p).1]
    exact hnum

end Store

-- ================================================================= the run

section Run

variable (clock : Nat → Int) {msgs : List NormalizedOrderbook}
  {m a : String} {side : Side} {p : ℚ}

theorem storeAt_succ {i : Nat} {msg : NormalizedOrderbook}
    (hi : msgs[i]? = some msg) :
    storeAt D msgs (i + 1) = (storeAt D msgs i).apply D msg := by
  unfold storeAt runStore
  rw [List.take_add_one, hi, Option.toList_some, List.foldl_append]
  rfl

theorem booksValid_storeAt (D : RustDecimal)
    (msgs : List NormalizedOrderbook) (i : Nat) :
    (storeAt D msgs i).BooksValid :=
  booksValid_runStore D _

/-- The key of the level before step `i`. -/
private def keyBefore (D : RustDecimal) (msgs : List NormalizedOrderbook)
    (m a : String) (side : Side) (p : ℚ) (i : Nat) : Option Decimal :=
  (storeAt D msgs i).keyAt m a side p

private theorem levelLive_iff (hD : D.Lawful) {i : Nat} :
    LevelLive D msgs m a side p i
      ↔ ∃ key, keyBefore D msgs m a side p i = some key := by
  have hmem : ∀ t, t ∈ responseNames D (storeAt D msgs i) m a side p
      ↔ ∃ key, keyBefore D msgs m a side p i = some key
        ∧ t = D.toString key :=
    fun t => mem_responseNames hD (booksValid_storeAt D msgs i)
  unfold LevelLive
  refine ⟨fun h => ?_, fun h => ?_⟩
  · obtain ⟨t, ht⟩ := List.exists_mem_of_ne_nil _ h
    obtain ⟨key, hkey, -⟩ := (hmem t).1 ht
    exact ⟨key, hkey⟩
  · obtain ⟨key, hkey⟩ := h
    exact List.ne_nil_of_mem ((hmem _).2 ⟨key, hkey, rfl⟩)

/-- A level that stands before and after a step keeps its key. -/
private theorem keyBefore_succ {i : Nat} {msg : NormalizedOrderbook}
    (hi : msgs[i]? = some msg) {key key' : Decimal}
    (h : keyBefore D msgs m a side p i = some key)
    (h' : keyBefore D msgs m a side p (i + 1) = some key') :
    key' = key := by
  unfold keyBefore at h h'
  rw [storeAt_succ hi] at h'
  by_cases hkey : msg.key = (m, a)
  · obtain ⟨rfl, rfl⟩ := Prod.mk.inj hkey
    rcases keyAt_apply h' with hsame | ⟨hnone, -⟩
    · exact Option.some.inj (hsame.symm.trans h)
    · rw [hnone] at h
      cases h
  · rw [keyAt_apply_of_ne hkey, h] at h'
    exact (Option.some.inj h').symm

/-- The texts emitted at a step. -/
private theorem mem_emitted (hD : D.Lawful) {i : Nat}
    {msg : NormalizedOrderbook} (hi : msgs[i]? = some msg) {x : String} :
    x ∈ emitted D clock msgs m a side p i
      ↔ (msg.key = (m, a) ∧ ∃ t ∈ listedTexts D msg side p,
          x = (levelChange D (storeAt D msgs (i + 1)) m a
            (t, side.toOrderSide)).price)
        ∨ ∃ key, keyBefore D msgs m a side p (i + 1) = some key
          ∧ x = D.toString key := by
  unfold emitted
  rw [hi, List.mem_append,
    mem_responseNames hD (booksValid_storeAt D msgs (i + 1))]
  refine or_congr_left ?_
  by_cases hkey : msg.key = (m, a)
  · obtain ⟨rfl, rfl⟩ := Prod.mk.inj hkey
    simp only [if_pos hkey]
    rw [mem_eventNames hD (booksValid_storeAt D msgs (i + 1))]
    exact (and_iff_right rfl).symm
  · simp [hkey]

/-- The key whose print names the level at step `i`: the one after the
step, or the one before it when the step removes the level. -/
private def NamedBy (D : RustDecimal) (msgs : List NormalizedOrderbook)
    (m a : String) (side : Side) (p : ℚ) (i : Nat) (key : Decimal) : Prop :=
  keyBefore D msgs m a side p (i + 1) = some key
    ∨ keyBefore D msgs m a side p (i + 1) = none
      ∧ keyBefore D msgs m a side p i = some key

/-- With every step spelled as the book does, all texts of a step are its
key as printed. -/
private theorem emitted_of_spelled (hD : D.Lawful) {i : Nat}
    {msg : NormalizedOrderbook} (hi : msgs[i]? = some msg)
    (hs : msg.key = (m, a) → Spelled D (storeAt D msgs i) msg side p)
    {key : Decimal} (hkey : NamedBy D msgs m a side p i key)
    {x : String} (hx : x ∈ emitted D clock msgs m a side p i) :
    x = D.toString key := by
  rcases (mem_emitted clock hD hi).1 hx with
    ⟨hown, t, ht, rfl⟩ | ⟨key', hkey', rfl⟩
  · have hspelled := hs hown
    obtain ⟨rfl, rfl⟩ := Prod.mk.inj hown
    have hquoted := isSome_keyAt_apply (D := D)
      (booksValid_storeAt D msgs i) msg side p
    rw [← storeAt_succ hi] at hquoted
    obtain ⟨hlisted, hgone⟩ := (price_levelChange hD
      (booksValid_storeAt D msgs (i + 1)) msg.marketId msg.clobTokenId t
      side p).2 (mem_listedTexts.1 ht).2
    rcases hkey with hkey | ⟨hnone, hbefore⟩
    · -- the level stands after the step
      have hlive : ((storeAt D msgs (i + 1)).keyAt msg.marketId
          msg.clobTokenId side p).isSome = true :=
        Option.isSome_iff_exists.2 ⟨key, hkey⟩
      obtain ⟨d, hd, hprice⟩ := hlisted hlive
      obtain ⟨d', hd', htexts⟩ := hspelled.1 (hquoted.1 hlive)
      obtain rfl := Option.some.inj (hd.symm.trans (htexts t ht))
      unfold keyBefore at hkey
      rw [storeAt_succ hi] at hkey
      have hkd : key = d := by
        rcases keyAt_apply hkey with hsame | ⟨-, t', ht', hkey'⟩
        · exact hd' key hsame
        · exact Option.some.inj (hkey'.symm.trans (htexts t' ht'))
      rw [hkd]
      exact hprice
    · -- the step removes the level
      have hnot : ¬ QuotedAfter D (storeAt D msgs i) msg side p := by
        intro hq
        obtain ⟨key', hkey'⟩ :=
          Option.isSome_iff_exists.1 (hquoted.2 hq)
        exact Option.some_ne_none _ (hkey'.symm.trans hnone)
      exact (hgone hnone).trans (hspelled.2 hnot key hbefore t ht)
  · rcases hkey with hkey | ⟨hnone, -⟩
    · rw [hkey'] at hkey
      rw [Option.some.inj hkey]
    · rw [hnone] at hkey'
      cases hkey'

/-- While the level stands its key stays. -/
private theorem keyBefore_between (hD : D.Lawful) {i j : Nat}
    (hlife : SameLife D msgs m a side p i j) {key : Decimal}
    (hkey : keyBefore D msgs m a side p (i + 1) = some key) :
    ∀ n, i < n → n ≤ j → keyBefore D msgs m a side p n = some key := by
  intro n hin
  induction n, hin using Nat.le_induction with
  | base => intro _; exact hkey
  | succ n hin ih =>
      intro hn
      obtain ⟨key', hkey'⟩ := (levelLive_iff hD).1
        (hlife.between (n + 1) (by omega) hn)
      have hmsg : msgs[n]? = some (msgs.get ⟨n, by
          have := hlife.lt; omega⟩) := List.getElem?_eq_getElem _
      rw [keyBefore_succ hmsg (ih (by omega)) hkey'] at hkey'
      exact hkey'

/-- One key names the level throughout a lifetime. -/
private theorem SameLife.exists_namedBy (hD : D.Lawful) {i j : Nat}
    (hlife : SameLife D msgs m a side p i j) :
    ∃ key, NamedBy D msgs m a side p i key
      ∧ NamedBy D msgs m a side p j key := by
  cases hnext : keyBefore D msgs m a side p (i + 1) with
  | none =>
      -- the level goes at step `i`, so the lifetime ends there
      have hij : i = j := by
        by_contra hne
        have hlt := lt_of_le_of_ne hlife.le hne
        obtain ⟨key, hkey⟩ := (levelLive_iff hD).1
          (hlife.between (i + 1) (by omega) (by omega))
        exact Option.some_ne_none _ (hkey.symm.trans hnext)
      subst hij
      obtain ⟨key, hkey⟩ : ∃ key,
          keyBefore D msgs m a side p i = some key := by
        rcases hlife.touches with h | h
        · exact (levelLive_iff hD).1 h
        · obtain ⟨key, hkey⟩ := (levelLive_iff hD).1 h
          exact absurd (hkey.symm.trans hnext) (Option.some_ne_none _)
      exact ⟨key, Or.inr ⟨hnext, hkey⟩, Or.inr ⟨hnext, hkey⟩⟩
  | some key =>
      refine ⟨key, Or.inl hnext, ?_⟩
      rcases Nat.eq_or_lt_of_le hlife.le with rfl | hlt
      · exact Or.inl hnext
      · have hj : msgs[j]? = some (msgs.get ⟨j, hlife.lt⟩) :=
          List.getElem?_eq_getElem _
        have hbefore := keyBefore_between hD hlife hnext j hlt le_rfl
        cases hafter : keyBefore D msgs m a side p (j + 1) with
        | none => exact Or.inr ⟨hafter, hbefore⟩
        | some key' =>
            rw [keyBefore_succ hj hbefore hafter] at hafter
            exact Or.inl hafter

/-- What one name throughout each lifetime asks of a message of the
asset. -/
private theorem spelled_of_oneName (hD : D.Lawful)
    (hone : OneName D clock msgs m a side p) {i : Nat}
    {msg : NormalizedOrderbook} (hi : msgs[i]? = some msg)
    (hown : msg.key = (m, a)) :
    Spelled D (storeAt D msgs i) msg side p := by
  have hlen : i < msgs.length := (List.getElem?_eq_some_iff.1 hi).1
  have hquoted := isSome_keyAt_apply (D := D)
    (booksValid_storeAt D msgs i) msg side p
  rw [← storeAt_succ hi] at hquoted
  have htexts := fun t => price_levelChange hD
    (booksValid_storeAt D msgs (i + 1)) m a t side p
  have hemit : ∀ t ∈ listedTexts D msg side p,
      (levelChange D (storeAt D msgs (i + 1)) m a
        (t, side.toOrderSide)).price
          ∈ emitted D clock msgs m a side p i := fun t ht =>
    (mem_emitted clock hD hi).2 (Or.inl ⟨hown, t, ht, rfl⟩)
  obtain ⟨rfl, rfl⟩ := Prod.mk.inj hown
  refine ⟨fun hq => ?_, fun hq key hkey t ht => ?_⟩
  · -- the response after the step is what the texts are compared with
    obtain ⟨d, hd⟩ := Option.isSome_iff_exists.1 (hquoted.2 hq)
    refine ⟨d, fun key hkey => (keyBefore_succ hi hkey hd).symm, ?_⟩
    intro t ht
    obtain ⟨d', hd', hprice⟩ := ((htexts t).2
      (mem_listedTexts.1 ht).2).1 (hquoted.2 hq)
    have hlife : SameLife D msgs msg.marketId msg.clobTokenId side p i i :=
      ⟨le_rfl, hlen, fun n hn hn' => absurd hn (by omega),
        Or.inr ((levelLive_iff hD).2 ⟨d, hd⟩)⟩
    have hname := hone i i hlife _ (hemit t ht) _
      ((mem_emitted clock hD hi).2 (Or.inr ⟨d, hd, rfl⟩))
    rw [hprice] at hname
    rw [hd', hD.toString_injective hname]
  · -- the response before the step is
    have hnone : (storeAt D msgs (i + 1)).keyAt msg.marketId
        msg.clobTokenId side p = none := by
      rw [← Option.not_isSome_iff_eq_none, hquoted]
      exact hq
    cases i with
    | zero => cases side <;> cases hkey
    | succ j =>
        have hlive : LevelLive D msgs msg.marketId msg.clobTokenId side p
            (j + 1) := (levelLive_iff hD).2 ⟨key, hkey⟩
        have hlife : SameLife D msgs msg.marketId msg.clobTokenId side p
            j (j + 1) :=
          ⟨Nat.le_succ j, hlen, fun n hn hn' => by
            obtain rfl : n = j + 1 := by omega
            exact hlive, Or.inr hlive⟩
        have hj : msgs[j]? = some (msgs.get ⟨j, by omega⟩) :=
          List.getElem?_eq_getElem _
        have hname := hone j (j + 1) hlife _
          ((mem_emitted clock hD hj).2 (Or.inr ⟨key, hkey, rfl⟩)) _
          (hemit t ht)
        rw [((htexts t).2 (mem_listedTexts.1 ht).2).2 hnone] at hname
        exact hname.symm

/-- A price level has one name on the wire throughout each of its
lifetimes exactly when every message of the asset spells the level as the
book does: while the level stands its listed texts parse to the stored
decimal, and when it removes the level they are the stored decimal as
printed. -/
theorem one_name_iff_spelled (hD : D.Lawful) :
    OneName D clock msgs m a side p
      ↔ ∀ i msg, msgs[i]? = some msg → msg.key = (m, a) →
          Spelled D (storeAt D msgs i) msg side p := by
  refine ⟨fun hone i msg => spelled_of_oneName clock hD hone,
    fun hs i j hlife x hx y hy => ?_⟩
  have hlt : i < msgs.length := lt_of_le_of_lt hlife.le hlife.lt
  have hi : msgs[i]? = some (msgs.get ⟨i, hlt⟩) :=
    List.getElem?_eq_getElem _
  have hj : msgs[j]? = some (msgs.get ⟨j, hlife.lt⟩) :=
    List.getElem?_eq_getElem _
  obtain ⟨key, hkey, hkey'⟩ := hlife.exists_namedBy hD
  have hname := emitted_of_spelled clock hD hi (hs i _ hi) hkey hx
  have hname' := emitted_of_spelled clock hD hj (hs j _ hj) hkey' hy
  rw [hname, hname']

end Run

/-- Two platforms write the price of one level differently: the event of
the second says "0.50" while the book lists "0.5". -/
theorem level_has_two_names :
    ¬ OneName fixedPoint (fun _ => 0)
      [.deltaOf "polymarket" "m" "t" [⟨.buy, "0.5", "10"⟩],
        .deltaOf "kalshi" "m" "t" [⟨.buy, "0.50", "3"⟩]]
      "m" "t" .buy (1 / 2) := by
  intro hone
  have hlife : SameLife fixedPoint
      [.deltaOf "polymarket" "m" "t" [⟨.buy, "0.5", "10"⟩],
        .deltaOf "kalshi" "m" "t" [⟨.buy, "0.50", "3"⟩]]
      "m" "t" .buy (1 / 2) 1 1 :=
    ⟨le_rfl, by decide, fun n hn hn' => absurd hn (by omega),
      Or.inr (by unfold LevelLive; decide +kernel)⟩
  have hname := hone 1 1 hlife "0.50" (by decide +kernel) "0.5"
    (by decide +kernel)
  exact absurd hname (by decide)

/-- Two platforms that write it alike. -/
theorem one_name_of_same_text :
    OneName fixedPoint (fun _ => 0)
      [.deltaOf "polymarket" "m" "t" [⟨.buy, "0.5", "10"⟩],
        .deltaOf "kalshi" "m" "t" [⟨.buy, "0.5", "3"⟩]]
      "m" "t" .buy (1 / 2) := by
  refine (one_name_iff_spelled _ fixedPoint_lawful).2 ?_
  intro i msg hi _
  match i with
  | 0 =>
      obtain rfl := Option.some.inj hi
      have hkey : (storeAt fixedPoint
          [.deltaOf "polymarket" "m" "t" [⟨.buy, "0.5", "10"⟩],
            .deltaOf "kalshi" "m" "t" [⟨.buy, "0.5", "3"⟩]] 0).keyAt "m"
            "t" .buy (1 / 2) = none := rfl
      refine ⟨fun _ => ⟨⟨5, 1⟩, fun key h => ?_, by decide +kernel⟩,
        fun _ key h => ?_⟩
      · exact absurd (h.symm.trans hkey) (Option.some_ne_none key)
      · exact absurd (h.symm.trans hkey) (Option.some_ne_none key)
  | 1 =>
      obtain rfl := Option.some.inj hi
      have hkey : (storeAt fixedPoint
          [.deltaOf "polymarket" "m" "t" [⟨.buy, "0.5", "10"⟩],
            .deltaOf "kalshi" "m" "t" [⟨.buy, "0.5", "3"⟩]] 1).keyAt "m"
            "t" .buy (1 / 2) = some ⟨5, 1⟩ := by decide +kernel
      refine ⟨fun _ => ⟨⟨5, 1⟩, fun key h => ?_, by decide +kernel⟩,
        fun _ key h => ?_⟩
      · exact Option.some.inj (h.symm.trans hkey)
      · obtain rfl := Option.some.inj (h.symm.trans hkey)
        decide +kernel
  | n + 2 => cases hi

end Wup
