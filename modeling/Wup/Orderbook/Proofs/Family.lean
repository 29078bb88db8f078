/-
The store is a family of independent books.

`bookAt_apply` is the step: a message moves the book of its own market
and asset, creating it if need be, and no other. By the projection lemma
each book is then its own fold over its own messages (`family`).

# The listing

`allBooks` flattens the two-level map. Its keys are the (market, asset)
pairs of the messages, each once, so whatever the listing or the
statistics count is a count over the distinct keys of the run, and
whatever they show is the family's (`allBooks_perm_family`).

# The counters

A 64-bit counter bumped at some of the messages ends at the number of
these messages, wrapped (`foldl_bump`). The books' own counters are
bumped at every message, and every message has exactly one book.
-/
import Wup.Orderbook.Store
import Wup.Orderbook.Proofs.Refinement

namespace Wup

variable (D : RustDecimal)

-- ================================================================= the run

/-- The store after a run of messages. -/
def runStore (msgs : List NormalizedOrderbook) : OrderbookStore :=
  msgs.foldl (OrderbookStore.apply D) .new

/-- Where a message belongs: its market and asset. -/
def NormalizedOrderbook.key (msg : NormalizedOrderbook) :
    String × String :=
  (msg.marketId, msg.clobTokenId)

/-- The messages of one asset of one market. -/
def ownMessages (k : String × String) (msgs : List NormalizedOrderbook) :
    List NormalizedOrderbook :=
  msgs.filter fun msg => msg.key = k

/-- The book of one asset by itself: the fold over its own messages, from
the first one on. -/
def family (msgs : List NormalizedOrderbook) (k : String × String) :
    Option Orderbook :=
  if ownMessages k msgs = [] then none
  else some ((ownMessages k msgs).foldl (Orderbook.apply D)
    (.new k.2 k.1))

theorem ownMessages_eq_nil {k : String × String}
    {msgs : List NormalizedOrderbook} :
    ownMessages k msgs = [] ↔ k ∉ msgs.map (·.key) := by
  simp [ownMessages, List.filter_eq_nil_iff]

theorem isSome_family {msgs : List NormalizedOrderbook}
    {k : String × String} :
    (family D msgs k).isSome = true ↔ k ∈ msgs.map (·.key) := by
  unfold family
  by_cases h : ownMessages k msgs = []
  · simp [h, ownMessages_eq_nil.1 h]
  · simp [h, not_not.1 (ownMessages_eq_nil.not.1 h)]

-- ========================================================== the projection

namespace OrderbookStore

/-- A message moves the book of its market and asset, and no other. -/
theorem bookAt_apply (store : OrderbookStore) (msg : NormalizedOrderbook)
    (m a : String) :
    (store.apply D msg).bookAt m a
      = if msg.key = (m, a) then
          some (((store.bookAt m a).getD (.new a m)).apply D msg)
        else store.bookAt m a := by
  unfold apply bookAt NormalizedOrderbook.key
  rw [HashMap.lookup_upsert]
  by_cases hm : msg.marketId = m
  · subst hm
    rw [if_pos rfl, Option.bind_some, HashMap.lookup_upsert]
    by_cases ha : msg.clobTokenId = a
    · subst ha
      cases store.books.lookup msg.marketId with
      | none => simp
      | some books => simp
    · cases store.books.lookup msg.marketId with
      | none => simp [ha, Ne.symm ha]
      | some books => simp [ha, Ne.symm ha]
  · simp [hm, Ne.symm hm]

/-- What a run makes of a book: the fold over the book's own messages,
from what it was or from the empty book. -/
theorem bookAt_foldl_apply (store : OrderbookStore)
    (msgs : List NormalizedOrderbook) (m a : String) :
    (msgs.foldl (OrderbookStore.apply D) store).bookAt m a
      = if ownMessages (m, a) msgs = [] then store.bookAt m a
        else some ((ownMessages (m, a) msgs).foldl (Orderbook.apply D)
          ((store.bookAt m a).getD (.new a m))) := by
  have hstep := foldl_component (fun store => bookAt store m a)
    (OrderbookStore.apply D)
    (fun ob msg => some ((ob.getD (.new a m)).apply D msg))
    (fun msg => msg.key = (m, a))
    (fun store msg => by simpa using bookAt_apply D store msg m a)
    store msgs
  rw [foldl_getD_eq] at hstep
  exact hstep

/-- Each book of a run is its own fold over its own messages. -/
theorem bookAt_runStore (msgs : List NormalizedOrderbook) (m a : String) :
    (runStore D msgs).bookAt m a = family D msgs (m, a) :=
  bookAt_foldl_apply D OrderbookStore.new msgs m a

/-- A market's entry is there from its first message on. -/
theorem isSome_lookup_runStore (msgs : List NormalizedOrderbook)
    (m : String) :
    ((runStore D msgs).books.lookup m).isSome = true
      ↔ m ∈ msgs.map (·.marketId) := by
  have hrun : ∀ store : OrderbookStore,
      (((msgs.foldl (OrderbookStore.apply D) store).books.lookup
          m).isSome = true)
        ↔ (store.books.lookup m).isSome = true
          ∨ m ∈ msgs.map (·.marketId) := by
    induction msgs with
    | nil => intro store; simp
    | cons msg msgs ih =>
        intro store
        rw [List.foldl_cons, ih, List.map_cons, List.mem_cons]
        have hstep : ((store.apply D msg).books.lookup m).isSome = true
            ↔ m = msg.marketId ∨ (store.books.lookup m).isSome = true := by
          unfold apply
          rw [HashMap.lookup_upsert]
          by_cases hm : m = msg.marketId
          · simp [hm]
          · simp [hm]
        rw [hstep]
        tauto
  exact (hrun _).trans (by simp [OrderbookStore.new])

-- ============================================================= the listing

/-- All books under their market and asset. -/
def allBooks (store : OrderbookStore) :
    List ((String × String) × Orderbook) :=
  HashMap.flatten store.books

theorem mem_allBooks {store : OrderbookStore} {m a : String}
    {ob : Orderbook} :
    ((m, a), ob) ∈ store.allBooks ↔ store.bookAt m a = some ob :=
  HashMap.mem_flatten

/-- The books of a run are the family, each pair of the run once. -/
theorem allBooks_perm_family (msgs : List NormalizedOrderbook) :
    ((runStore D msgs).allBooks.map fun e => (e.1, some e.2)).Perm
      ((msgs.map (·.key)).dedup.map fun k => (k, family D msgs k)) := by
  have hfst : ∀ e ∈ (runStore D msgs).allBooks,
      family D msgs e.1 = some e.2 := by
    intro e he
    rw [← bookAt_runStore]
    exact mem_allBooks.1 he
  have hnodup : ((runStore D msgs).allBooks.map (·.1)).Nodup :=
    HashMap.nodup_flatten_keys _
  have hkeys : ((runStore D msgs).allBooks.map (·.1)).Perm
      (msgs.map (·.key)).dedup := by
    refine (List.perm_ext_iff_of_nodup hnodup (List.nodup_dedup _)).2 ?_
    intro k
    rw [List.mem_dedup, ← isSome_family D, List.mem_map]
    refine ⟨fun h => ?_, fun h => ?_⟩
    · obtain ⟨e, he, hk⟩ := h
      rw [← hk, hfst e he]
      rfl
    · obtain ⟨ob, hob⟩ := Option.isSome_iff_exists.1 h
      rw [← bookAt_runStore] at hob
      exact ⟨(k, ob), mem_allBooks.2 hob, rfl⟩
  have hmap : ((runStore D msgs).allBooks.map fun e => (e.1, some e.2))
      = ((runStore D msgs).allBooks.map (·.1)).map fun k =>
          (k, family D msgs k) := by
    rw [List.map_map]
    exact List.map_congr_left fun e he => by simp [hfst e he]
  rw [hmap]
  exact hkeys.map _

/-- The markets of a run, each once. -/
theorem markets_perm (msgs : List NormalizedOrderbook) :
    (runStore D msgs).books.keys.Perm (msgs.map (·.marketId)).dedup := by
  refine (List.perm_ext_iff_of_nodup (AList.keys_nodup _)
    (List.nodup_dedup _)).2 ?_
  intro m
  rw [List.mem_dedup, ← isSome_lookup_runStore D, AList.lookup_isSome,
    AList.mem_keys]

/-- Statistics count the entries of the two-level map. -/
theorem stats_totalAssets (store : OrderbookStore) :
    store.stats.totalAssets = store.allBooks.length := by
  simp [stats, allBooks, HashMap.flatten, HashMap.values,
    List.length_flatMap, Function.comp_def]

/-- The listing counts what the statistics count. -/
theorem listAll_counts (store : OrderbookStore) :
    (store.listAll D).marketCount = store.stats.marketCount
      ∧ (store.listAll D).totalAssets = store.stats.totalAssets := by
  simp [listAll, stats, marketSummary, HashMap.values,
    Function.comp_def]

/-- The listing shows every book, under its market. -/
theorem listAll_assets (store : OrderbookStore) :
    ((store.listAll D).markets.flatMap fun s =>
        s.assets.map fun t => (s.marketId, t))
      = store.allBooks.map fun e =>
          (e.1.1, e.2.toSummary D (store.buildResponseMetadata e.1.1)) := by
  simp [listAll, marketSummary, allBooks, HashMap.flatten,
    HashMap.values, List.flatMap_map, List.map_flatMap,
    Function.comp_def]

/-- The listing shows the family: each pair of the run once, with the
summary of its book. -/
theorem listAll_perm_family (msgs : List NormalizedOrderbook) :
    (((runStore D msgs).listAll D).markets.flatMap fun s =>
        s.assets.map fun t => (s.marketId, some t)).Perm
      ((msgs.map (·.key)).dedup.map fun k =>
        (k.1, (family D msgs k).map fun ob =>
          ob.toSummary D
            ((runStore D msgs).buildResponseMetadata k.1))) := by
  have hperm := (allBooks_perm_family D msgs).map fun e =>
    (e.1.1, e.2.map fun ob =>
      ob.toSummary D ((runStore D msgs).buildResponseMetadata e.1.1))
  have hlist := congrArg (List.map fun p => (p.1, some p.2))
    (listAll_assets D (runStore D msgs))
  simp only [List.map_map, List.map_flatMap, Function.comp_def,
    Option.map_some] at hperm hlist
  rw [hlist]
  exact hperm

-- ============================================================ the counters

end OrderbookStore

/-- Bumping a 64-bit counter once per item adds the number of items,
wrapped. -/
theorem foldl_bump {ι : Type} (is : List ι) (c : UInt64) :
    is.foldl (fun c _ => c + 1) c = c + UInt64.ofNat is.length := by
  induction is generalizing c with
  | nil => simp
  | cons i is ih =>
      rw [List.foldl_cons, ih, List.length_cons, Nat.add_comm,
        UInt64.ofNat_add, add_assoc]
      rfl

theorem updateCount_foldl_apply (ob : Orderbook)
    (msgs : List NormalizedOrderbook) :
    (msgs.foldl (Orderbook.apply D) ob).updateCount
      = ob.updateCount + UInt64.ofNat msgs.length := by
  have h := foldl_component Orderbook.updateCount (Orderbook.apply D)
    (fun c _ => c + 1) (fun _ => true) (by simp) ob msgs
  rw [h, List.filter_true, foldl_bump]

/-- A book counts its own messages. -/
theorem updateCount_family {msgs : List NormalizedOrderbook}
    {k : String × String} {ob : Orderbook}
    (h : family D msgs k = some ob) :
    ob.updateCount = UInt64.ofNat (ownMessages k msgs).length := by
  unfold family at h
  split at h
  · cases h
  · obtain rfl := Option.some.inj h
    exact (updateCount_foldl_apply D _ _).trans (zero_add _)

/-- Every message belongs to one key of the run. -/
theorem sum_length_ownMessages (msgs : List NormalizedOrderbook) :
    ((msgs.map (·.key)).dedup.map fun k =>
        (ownMessages k msgs).length).sum = msgs.length := by
  have hsum := List.sum_map_count_dedup_eq_length (msgs.map (·.key))
  rw [List.length_map] at hsum
  rw [← hsum]
  refine congrArg List.sum (List.map_congr_left fun k _ => ?_)
  unfold ownMessages List.count
  rw [List.countP_map, List.countP_eq_length_filter]
  refine congrArg List.length (List.filter_congr fun msg _ => ?_)
  by_cases h : msg.key = k <;> simp [h]

namespace OrderbookStore

theorem totalSnapshots_runStore (msgs : List NormalizedOrderbook) :
    (runStore D msgs).totalSnapshots
      = UInt64.ofNat (msgs.countP fun msg =>
          msg.messageType = .snapshot) := by
  have h := foldl_component totalSnapshots (OrderbookStore.apply D)
    (fun c _ => c + 1) (fun msg => msg.messageType = .snapshot)
    (fun store msg => by cases h : msg.messageType <;> simp [apply, h])
    OrderbookStore.new msgs
  rw [foldl_bump, ← List.countP_eq_length_filter] at h
  exact h.trans (zero_add _)

theorem totalDeltas_runStore (msgs : List NormalizedOrderbook) :
    (runStore D msgs).totalDeltas
      = UInt64.ofNat (msgs.countP fun msg =>
          msg.messageType = .delta) := by
  have h := foldl_component totalDeltas (OrderbookStore.apply D)
    (fun c _ => c + 1) (fun msg => msg.messageType = .delta)
    (fun store msg => by cases h : msg.messageType <;> simp [apply, h])
    OrderbookStore.new msgs
  rw [foldl_bump, ← List.countP_eq_length_filter] at h
  exact h.trans (zero_add _)

private theorem ofNat_sum (ns : List Nat) :
    UInt64.ofNat ns.sum = (ns.map UInt64.ofNat).sum := by
  induction ns with
  | nil => rfl
  | cons n ns ih =>
      rw [List.sum_cons, List.map_cons, List.sum_cons, UInt64.ofNat_add, ih]

/-- Every message is counted by exactly one book. -/
theorem sum_updateCount_runStore (msgs : List NormalizedOrderbook) :
    ((runStore D msgs).allBooks.map fun e => e.2.updateCount).sum
      = UInt64.ofNat msgs.length := by
  have hperm := (allBooks_perm_family D msgs).map fun e =>
    (e.2.map Orderbook.updateCount).getD 0
  have hcount : ∀ k ∈ (msgs.map (·.key)).dedup,
      ((family D msgs k).map Orderbook.updateCount).getD 0
        = UInt64.ofNat (ownMessages k msgs).length := by
    intro k hk
    obtain ⟨ob, hob⟩ := Option.isSome_iff_exists.1
      ((isSome_family D).2 (List.mem_dedup.1 hk))
    rw [hob, Option.map_some, Option.getD_some, updateCount_family D hob]
  simp only [List.map_map, Function.comp_def, Option.map_some,
    Option.getD_some] at hperm
  rw [hperm.sum_eq, List.map_congr_left hcount,
    ← sum_length_ownMessages msgs, ofNat_sum, List.map_map]
  rfl

end OrderbookStore

-- ============================================================== the family

/-- The store is a family of independent books: each book is the fold of
its own messages and is there from the first of them on; the statistics
and the listing count the distinct markets and (market, asset) pairs,
and the listing shows the family; the message counters count the
snapshots and the deltas, and together the updates of all books. -/
theorem store_is_family (msgs : List NormalizedOrderbook) :
    (∀ m a, (runStore D msgs).bookAt m a = family D msgs (m, a))
      ∧ (∀ m a depth,
        (runStore D msgs).get D m a depth
            = (family D msgs (m, a)).map (fun ob =>
                ob.toResponse D depth
                  ((runStore D msgs).buildResponseMetadata m))
          ∧ (((runStore D msgs).get D m a depth).isSome = true
              ↔ ∃ msg ∈ msgs, msg.marketId = m ∧ msg.clobTokenId = a))
      ∧ (runStore D msgs).stats
          = { marketCount := (msgs.map (·.marketId)).dedup.length
              totalAssets := (msgs.map (·.key)).dedup.length
              totalSnapshots := .ofNat
                (msgs.countP fun msg => msg.messageType = .snapshot)
              totalDeltas := .ofNat
                (msgs.countP fun msg => msg.messageType = .delta) }
      ∧ ((runStore D msgs).listAll D).marketCount
          = (runStore D msgs).stats.marketCount
      ∧ ((runStore D msgs).listAll D).totalAssets
          = (runStore D msgs).stats.totalAssets
      ∧ ((runStore D msgs).listAll D).totalSnapshots
          = (runStore D msgs).stats.totalSnapshots
      ∧ ((runStore D msgs).listAll D).totalDeltas
          = (runStore D msgs).stats.totalDeltas
      ∧ (((runStore D msgs).listAll D).markets.flatMap fun s =>
            s.assets.map fun t => (s.marketId, some t)).Perm
          ((msgs.map (·.key)).dedup.map fun k =>
            (k.1, (family D msgs k).map fun ob =>
              ob.toSummary D
                ((runStore D msgs).buildResponseMetadata k.1)))
      ∧ (runStore D msgs).totalSnapshots + (runStore D msgs).totalDeltas
          = ((runStore D msgs).allBooks.map fun e =>
              e.2.updateCount).sum := by
  have hget : ∀ m a depth, (runStore D msgs).get D m a depth
      = (family D msgs (m, a)).map fun ob =>
          ob.toResponse D depth
            ((runStore D msgs).buildResponseMetadata m) := by
    intro m a depth
    rw [OrderbookStore.get, OrderbookStore.bookAt_runStore]
  have hpairs : (runStore D msgs).allBooks.length
      = (msgs.map (·.key)).dedup.length := by
    simpa using (OrderbookStore.allBooks_perm_family D msgs).length_eq
  have hmarkets : (runStore D msgs).books.entries.length
      = (msgs.map (·.marketId)).dedup.length := by
    simpa [AList.keys, List.keys] using
      (OrderbookStore.markets_perm D msgs).length_eq
  obtain ⟨hlistMarkets, hlistAssets⟩ :=
    OrderbookStore.listAll_counts D (runStore D msgs)
  refine ⟨OrderbookStore.bookAt_runStore D msgs,
    fun m a depth => ⟨hget m a depth, ?_⟩, ?_, hlistMarkets, hlistAssets,
    rfl, rfl, OrderbookStore.listAll_perm_family D msgs, ?_⟩
  · rw [hget, Option.isSome_map, isSome_family]
    simp [NormalizedOrderbook.key]
  · rw [← hmarkets, ← hpairs, ← OrderbookStore.totalSnapshots_runStore D,
      ← OrderbookStore.totalDeltas_runStore D,
      ← OrderbookStore.stats_totalAssets]
    rfl
  · -- a message is a snapshot or a delta
    have hsplit : msgs.length
        = (msgs.countP fun msg => msg.messageType = .snapshot)
          + msgs.countP fun msg => msg.messageType = .delta := by
      rw [List.length_eq_countP_add_countP
        (fun msg => msg.messageType = .snapshot)]
      refine congrArg _ (List.countP_congr fun msg _ => ?_)
      cases msg.messageType <;> simp
    rw [OrderbookStore.sum_updateCount_runStore,
      OrderbookStore.totalSnapshots_runStore,
      OrderbookStore.totalDeltas_runStore, hsplit, UInt64.ofNat_add]

end Wup
