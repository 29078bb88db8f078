/-
No update is lost around a subscription whose snapshot is not overtaken.

A client's `view` of an asset is the book it ends with once everything in
its channel is received. `Current` says that the view, patched with the
events still on their way, is the store's aggregated book. A step of any
party keeps a current view current: a published event extends both sides
(`Publishes.patch_snoc`), a delivered one moves from the way into the view.

# The snapshot

Between its subscription and its snapshot a client's view may be anything.
The invariant then speaks of the answer: what was read, patched with the
events on their way, is the store's book. At the moment of the read all
events on their way are reflected in the book already and patching them
again changes nothing (`Publishes.settle`), so the answer may be followed
by older events. It may not be preceded by newer ones: those are lost when
the snapshot replaces the book. Nothing in the protocol orders the two, so
the invariant speaks of those clients and assets whose snapshot was not
overtaken (`Promised`): what one client misses is no matter of another's.

A panic is felt at one asset as well. Where the service stops, the store
has a change that is never published, of that asset and of no other.
-/
import Wup.Gateway.Proofs.Channels
import Wup.Gateway.Proofs.Snapshot
import Wup.Orderbook.Proofs.OrPanic

namespace Wup.Gateway

open ChangeFeed ClientRegistry

variable {D : RustDecimal}

-- =============================================================== the views

/-- What the events on their way say about an asset. -/
def news (D : RustDecimal) (m a : String)
    (nats : List (Nat × AggregatedPriceChangeEvent)) :
    List (LevelKey × Option AggLevel) :=
  nats.flatMap fun e =>
    if e.2.marketId = m ∧ e.2.assetId = a then e.2.readings D else []

theorem news_append (m a : String)
    (nats nats' : List (Nat × AggregatedPriceChangeEvent)) :
    news D m a (nats ++ nats') = news D m a nats ++ news D m a nats' :=
  List.flatMap_append

theorem news_cons (m a : String) (e : Nat × AggregatedPriceChangeEvent)
    (nats : List (Nat × AggregatedPriceChangeEvent)) :
    news D m a (e :: nats) = news D m a [e] ++ news D m a nats :=
  news_append m a [e] nats

theorem news_singleton (m a : String) (n : Nat)
    (event : AggregatedPriceChangeEvent) :
    news D m a [(n, event)]
      = if event.marketId = m ∧ event.assetId = a then event.readings D
        else [] := by
  unfold news
  rw [List.flatMap_singleton]

/-- An event says nothing about another asset. -/
theorem news_other {m a : String} {n : Nat}
    {event : AggregatedPriceChangeEvent}
    (h : ¬(event.marketId = m ∧ event.assetId = a)) :
    news D m a [(n, event)] = [] := by
  rw [news_singleton]
  exact if_neg h

/-- Receiving an event patches the book it is about. -/
theorem receive_priceChange (books : Books) (n : Nat)
    (event : AggregatedPriceChangeEvent) (m a : String) :
    books.receive D (.text (.priceChange (.ofEvent event))) (m, a)
      = patch (books (m, a)) (news D m a [(n, event)]) := by
  rw [news_singleton]
  show Function.update books (event.marketId, event.assetId)
    (patch (books (event.marketId, event.assetId)) (event.readings D))
    (m, a) = _
  by_cases h : event.marketId = m ∧ event.assetId = a
  · obtain ⟨rfl, rfl⟩ := h
    rw [Function.update_self, if_pos ⟨rfl, rfl⟩]
  · rw [if_neg h, patch_nil, Function.update_of_ne]
    intro he
    exact h ⟨(congrArg Prod.fst he).symm, (congrArg Prod.snd he).symm⟩

namespace System

/-- The books a client ends with once it has received everything in its
channel. -/
def view (D : RustDecimal) (s : System) (clientId : ClientId) : Books :=
  (s.registry.channel clientId).foldl (Books.receive D) (s.books clientId)

/-- The view and the events on their way make the store's book. -/
def Current (D : RustDecimal) (s : System) (clientId : ClientId)
    (m a : String) : Prop :=
  patch (s.view D clientId (m, a)) (news D m a s.nats)
    = s.store.reported D m a

/-- The book of an answer. -/
def answerBook (D : RustDecimal) (orderbook : OrderbookHttpResponse) :
    AggBook :=
  (orderbook.toOrderbookData 0).book D

/-- An answer on its way to the gateway, and the events on theirs, make
the store's book: the older ones are reflected in the answer already. -/
structure Pending (D : RustDecimal) (s : System) (m a : String)
    (orderbook : OrderbookHttpResponse) (readAt : Nat) : Prop where
  readAt_le : readAt ≤ s.published
  split : ∃ older newer, s.nats = older ++ newer
    ∧ (∀ e ∈ newer, readAt ≤ e.1)
    ∧ patch (answerBook D orderbook) (news D m a older)
      = answerBook D orderbook
    ∧ patch (answerBook D orderbook) (news D m a newer)
      = s.store.reported D m a

/-- An answer is a book of the asset that was asked for. -/
structure Found (s : System) (f : Fetch)
    (orderbook : OrderbookHttpResponse) : Prop where
  marketId : orderbook.marketId = f.marketId
  assetId : orderbook.assetId = f.assetId
  stored : s.store.bookAt f.marketId f.assetId ≠ none

/-- What a run keeps of one client. -/
structure Served (D : RustDecimal) (s : System) (id : ClientId) :
    Prop where
  plain : ∀ p, s.registry.Holds id p → isWildcardPattern p = false
  /-- A snapshot is fetched for a subject the client holds. -/
  fetching : ∀ f, s.fetches.lookup id = some f →
    s.registry.Holds id (buildSubject f.marketId f.assetId)
  found : ∀ f answer orderbook, s.fetches.lookup id = some f →
    f.answer = some answer → answer.response = some orderbook →
    s.Found f orderbook
  /-- Whoever does not wait for a snapshot is current. -/
  current : ∀ m a, s.Promised id m a → ExactSubject m a →
    s.registry.Holds id (buildSubject m a) →
    (∀ f, s.fetches.lookup id = some f →
      f.marketId = m → f.assetId = a →
      ∃ answer, f.answer = some answer ∧ answer.response = none) →
    s.Current D id m a
  answered : ∀ f answer orderbook,
    s.Promised id f.marketId f.assetId → s.fetches.lookup id = some f →
    f.answer = some answer → answer.response = some orderbook →
    s.Pending D f.marketId f.assetId orderbook answer.readAt

/-- The invariant of the runs in which no buffer overflows. -/
structure Inv (D : RustDecimal) (s : System) : Prop where
  indexed : s.registry.Indexed
  keyed : s.store.Keyed
  /-- Events on their way are reflected in the store. -/
  settled : ∀ m a, s.stopped ≠ some (m, a) →
    patch (s.store.reported D m a) (news D m a s.nats)
      = s.store.reported D m a
  /-- Events are about books there are. -/
  known : ∀ m a, s.store.bookAt m a = none → news D m a s.nats = []
  /-- Nobody holds anything of a book there is not. -/
  blank : ∀ m a, s.store.bookAt m a = none →
    ∀ id, s.view D id (m, a) = fun _ => none
  served : ∀ id, s.Served D id

/-- A client is current of a book there is not. -/
theorem Inv.current_of_missing {s : System} (h : s.Inv D) {m a : String}
    (hbook : s.store.bookAt m a = none) (id : ClientId) :
    s.Current D id m a := by
  unfold Current
  rw [h.blank m a hbook, h.known m a hbook, patch_nil]
  funext k
  simp [OrderbookStore.reported, OrderbookStore.levelAt, hbook]

-- ============================================================ frame lemmas

/-- A step in which the orderbook service and NATS take no part. -/
structure AtGateway (s s' : System) : Prop where
  store : s'.store = s.store
  published : s'.published = s.published
  nats : s'.nats = s.nats
  stopped : s'.stopped = s.stopped

theorem Pending.congr {s s' : System} (hs : AtGateway s s') {m a : String}
    {orderbook : OrderbookHttpResponse} {readAt : Nat}
    (h : s.Pending D m a orderbook readAt) :
    s'.Pending D m a orderbook readAt := by
  obtain ⟨hle, hsplit⟩ := h
  refine ⟨?_, ?_⟩
  · rw [hs.published]
    exact hle
  · rw [hs.nats, hs.store]
    exact hsplit

theorem Found.congr {s s' : System} (hstore : s'.store = s.store)
    {f : Fetch} {orderbook : OrderbookHttpResponse}
    (h : s.Found f orderbook) : s'.Found f orderbook := by
  obtain ⟨hm, ha, hstored⟩ := h
  refine ⟨hm, ha, ?_⟩
  rw [hstore]
  exact hstored

theorem Current.congr {s s' : System} (hs : AtGateway s s')
    {id : ClientId} {m a : String}
    (hview : s'.view D id (m, a) = s.view D id (m, a))
    (h : s.Current D id m a) : s'.Current D id m a := by
  unfold Current at h ⊢
  rw [hview, hs.nats, hs.store]
  exact h

/-- What is promised depends on where the service stopped and on what was
missed. -/
theorem promised_congr {s s' : System} {id : ClientId} {m a : String}
    (hstopped : s'.stopped = s.stopped)
    (hmissed : s'.missed id (m, a) = s.missed id (m, a)) :
    s'.Promised id m a ↔ s.Promised id m a := by
  unfold Promised
  rw [hstopped, hmissed]

/-- A client notices nothing of a step at the gateway that leaves its
subjects, its request and its view alone. -/
theorem Served.frame {s s' : System} (hs : AtGateway s s') {id : ClientId}
    (h : s.Served D id)
    (hfetch : s'.fetches.lookup id = s.fetches.lookup id)
    (hmissed : s'.missed id = s.missed id)
    (hholds : ∀ p, s'.registry.Holds id p ↔ s.registry.Holds id p)
    (hview : s'.view D id = s.view D id) : s'.Served D id := by
  have hpromised : ∀ m a, s'.Promised id m a → s.Promised id m a :=
    fun m a => (promised_congr hs.stopped (by rw [hmissed])).1
  refine ⟨fun p hp => ?_, fun f hf => ?_,
    fun f answer orderbook hf hanswer hresponse => ?_,
    fun m a hkept hexact hp hf => ?_,
    fun f answer orderbook hkept hf hanswer hresponse => ?_⟩
  · exact h.plain p ((hholds p).1 hp)
  · rw [hfetch] at hf
    exact (hholds _).2 (h.fetching f hf)
  · rw [hfetch] at hf
    exact (h.found f answer orderbook hf hanswer hresponse).congr hs.store
  · rw [hfetch] at hf
    exact Current.congr hs (by rw [hview])
      (h.current m a (hpromised m a hkept) hexact ((hholds _).1 hp) hf)
  · rw [hfetch] at hf
    exact (h.answered f answer orderbook (hpromised _ _ hkept) hf hanswer
      hresponse).congr hs

/-- A step at the gateway leaves the clients to be served. -/
theorem Inv.at_gateway {s s' : System} (hs : AtGateway s s')
    (h : s.Inv D) (hindexed : s'.registry.Indexed)
    (hblank : ∀ m a, s.store.bookAt m a = none →
      ∀ id, s'.view D id (m, a) = s.view D id (m, a))
    (hserved : ∀ id, s'.Served D id) : s'.Inv D := by
  refine ⟨hindexed, ?_, ?_, ?_, ?_, hserved⟩
  · rw [hs.store]
    exact h.keyed
  · rw [hs.store, hs.nats, hs.stopped]
    exact h.settled
  · rw [hs.store, hs.nats]
    exact h.known
  · rw [hs.store]
    intro m a hbook id
    rw [hblank m a hbook id]
    exact h.blank m a hbook id

/-- A message that says nothing about a book. -/
def Inert : Message → Prop
  | .text (.snapshot _) => False
  | .text (.priceChange _) => False
  | _ => True

theorem receive_inert {msg : Message} (h : Inert msg) (books : Books) :
    books.receive D msg = books := by
  cases msg with
  | ping => rfl
  | pong => rfl
  | text msg =>
      cases msg with
      | snapshot data => exact absurd h id
      | priceChange data => exact absurd h id
      | pong => rfl
      | subscribed subjects => rfl
      | unsubscribed subjects => rfl
      | error message code => rfl

/-- One more message in a channel is received last. -/
theorem view_snoc {s s' : System} {id : ClientId} {msg : Message}
    (hchannel : s'.registry.channel id = s.registry.channel id ++ [msg])
    (hbooks : s'.books = s.books) :
    s'.view D id = (s.view D id).receive D msg := by
  unfold view
  rw [hchannel, hbooks, List.foldl_append]
  rfl

theorem view_congr {s s' : System} {id : ClientId}
    (hchannel : s'.registry.channel id = s.registry.channel id)
    (hbooks : s'.books = s.books) : s'.view D id = s.view D id := by
  unfold view
  rw [hchannel, hbooks]

-- ============================================================== publishing

variable {service : OrderbookService}

/-- A message changes no other asset's book. -/
theorem reported_process_of_ne (store : OrderbookStore)
    (msg : NormalizedOrderbook) (now : Int) {m a : String}
    (hkey : msg.key ≠ (m, a)) :
    (service.processMessage D store msg now).1.reported D m a
      = store.reported D m a := by
  have hbook := bookAt_processMessage (D := D) service store msg now m a
  rw [OrderbookStore.bookAt_apply, if_neg hkey] at hbook
  funext k
  simp only [OrderbookStore.reported, OrderbookStore.levelAt, hbook]

/-- What a delta does to an asset's book, its event tells. -/
theorem publishes_process (hD : D.Lawful) (store : OrderbookStore)
    {msg : NormalizedOrderbook} (htype : msg.messageType = .delta)
    (now : Int) (m a : String) (n : Nat) :
    Publishes
      (news D m a [(n, (publishChange D
        (service.processMessage D store msg now).1 msg now).2)])
      (store.reported D m a)
      ((service.processMessage D store msg now).1.reported D m a) := by
  rw [news_singleton]
  show Publishes (if msg.marketId = m ∧ msg.clobTokenId = a then _ else _)
    _ _
  by_cases hkey : msg.marketId = m ∧ msg.clobTokenId = a
  · obtain ⟨rfl, rfl⟩ := hkey
    rw [if_pos (And.intro rfl rfl)]
    exact publishes_delta hD service store htype now
  · rw [if_neg hkey, reported_process_of_ne store msg now fun h => hkey
      ⟨congrArg Prod.fst h, congrArg Prod.snd h⟩]
    exact publishes_nil _

/-- What processing a delta does: the events that are published, one or
none, tell what became of every book, but not of the one at which the
service stops. -/
structure Processes (D : RustDecimal) (s : System) (store : OrderbookStore)
    (events : List (Nat × AggregatedPriceChangeEvent))
    (stopped : Option (String × String)) : Prop where
  running : s.stopped = none
  keyed : store.Keyed
  number : ∀ e ∈ events, s.published ≤ e.1
  publishes : ∀ m a, stopped ≠ some (m, a) →
    Publishes (news D m a events) (s.store.reported D m a)
      (store.reported D m a)
  before : ∀ m a, store.bookAt m a = none →
    s.store.bookAt m a = none ∧ news D m a events = []

theorem step_process (hD : D.Lawful)
    (hpublish : service.publishChanges = true) {s s' : System}
    {msg : NormalizedOrderbook} {now : Int}
    (hkeyed : s.store.Keyed) (htype : msg.messageType = .delta)
    (hstep : s.step D service (.process msg now) = some s') :
    ∃ store events stopped, Processes D s store events stopped
      ∧ s' = { s with
          store := store
          published := s.published + events.length
          nats := s.nats ++ events
          stopped := stopped } := by
  have hbook := bookAt_processMessage (D := D) service s.store msg now
  have hstore : (OrPanic.processMessage D service s.store msg now).1
      = (service.processMessage D s.store msg now).1 := rfl
  have hkeyed' : (service.processMessage D s.store msg now).1.Keyed := by
    intro m a ob hob
    rw [hbook] at hob
    exact hkeyed.apply msg m a ob hob
  have hbefore : ∀ m a,
      (service.processMessage D s.store msg now).1.bookAt m a = none →
        s.store.bookAt m a = none ∧ msg.key ≠ (m, a) := by
    intro m a hnone
    rw [hbook, OrderbookStore.bookAt_apply] at hnone
    by_cases hkey : msg.key = (m, a)
    · rw [if_pos hkey] at hnone
      cases hnone
    · rw [if_neg hkey] at hnone
      exact ⟨hnone, hkey⟩
  unfold step at hstep
  simp only at hstep
  split at hstep
  · cases hstep
  next hrunning =>
  have hrunning : s.stopped = none :=
    Option.not_isSome_iff_eq_none.1 hrunning
  split at hstep
  next subject event hread =>
    obtain rfl : event = (publishChange D
        (service.processMessage D s.store msg now).1 msg now).2 := by
      have hpublished := OrPanic.processMessage_agrees s.store service msg
        now _ hread
      rw [published_processMessage D hpublish s.store msg now]
        at hpublished
      exact congrArg Prod.snd (Option.some.inj hpublished)
    refine ⟨_, [(s.published, _)], none, ⟨hrunning, hkeyed', ?_,
      fun m a _ => publishes_process hD s.store htype now m a s.published,
      fun m a hnone => ⟨(hbefore m a hnone).1, ?_⟩⟩, ?_⟩
    · intro e he
      rw [List.mem_singleton.1 he]
    · rw [news_singleton]
      exact if_neg fun hc => (hbefore m a hnone).2 (Prod.ext hc.1 hc.2)
    · rw [← Option.some.inj hstep, hrunning]
      rfl
  next hread =>
    -- a service that publishes has something to publish
    have hpublished := OrPanic.processMessage_agrees s.store service msg
      now _ hread
    rw [published_processMessage D hpublish s.store msg now] at hpublished
    cases hpublished
  next hread =>
    refine ⟨_, [], some msg.key,
      ⟨hrunning, hkeyed', fun e he => (nomatch he), fun m a hne => ?_,
        fun m a hnone => ⟨(hbefore m a hnone).1, rfl⟩⟩, ?_⟩
    · rw [reported_process_of_ne s.store msg now fun h => hne (by rw [h])]
      exact publishes_nil _
    · rw [← Option.some.inj hstep, List.append_nil]
      rfl

variable {s : System} {store : OrderbookStore}
  {events : List (Nat × AggregatedPriceChangeEvent)}
  {stopped : Option (String × String)}

theorem Served.process (hp : Processes D s store events stopped)
    {id : ClientId} (h : s.Served D id) :
    Served D { s with
      store := store
      published := s.published + events.length
      nats := s.nats ++ events
      stopped := stopped } id := by
  have hpromised : ∀ m a,
      (stopped ≠ some (m, a) ∧ s.missed id (m, a) = false) →
        s.Promised id m a := by
    intro m a hkept
    refine ⟨?_, hkept.2⟩
    rw [hp.running]
    exact nofun
  refine ⟨h.plain, h.fetching,
    fun f answer orderbook hf hanswer hresponse => ?_,
    fun m a hkept hexact hheld hf => ?_,
    fun f answer orderbook hkept hf hanswer hresponse => ?_⟩
  · obtain ⟨hm, ha, hstored⟩ :=
      h.found f answer orderbook hf hanswer hresponse
    exact ⟨hm, ha, fun hnone => hstored (hp.before _ _ hnone).1⟩
  · have hc := h.current m a (hpromised m a hkept) hexact hheld hf
    show patch (s.view D id (m, a)) (news D m a (s.nats ++ events)) = _
    rw [news_append]
    exact (hp.publishes m a hkept.1).patch_snoc hc
  · obtain ⟨hle, older, newer, hnats, hnumber, hold, hnew⟩ :=
      h.answered f answer orderbook (hpromised _ _ hkept) hf hanswer
        hresponse
    refine ⟨Nat.le_add_right_of_le hle, older, newer ++ events, ?_,
      fun e he => ?_, hold, ?_⟩
    · show s.nats ++ _ = _
      rw [← List.append_assoc, ← hnats]
    · rcases List.mem_append.1 he with he | he
      · exact hnumber e he
      · exact hle.trans (hp.number e he)
    · rw [news_append]
      exact (hp.publishes _ _ hkept.1).patch_snoc hnew

theorem Inv.process (hD : D.Lawful)
    (hpublish : service.publishChanges = true) {s' : System}
    (h : s.Inv D) {msg : NormalizedOrderbook} {now : Int}
    (htype : msg.messageType = .delta)
    (hstep : s.step D service (.process msg now) = some s') : s'.Inv D := by
  obtain ⟨store, events, stopped, hp, rfl⟩ :=
    step_process hD hpublish h.keyed htype hstep
  refine ⟨h.indexed, hp.keyed, fun m a hne => ?_, fun m a hnone => ?_,
    fun m a hnone => ?_, fun id => (h.served id).process hp⟩
  · rw [news_append]
    refine (hp.publishes m a hne).settle (h.settled m a ?_)
    rw [hp.running]
    exact nofun
  · obtain ⟨hbefore, hnews⟩ := hp.before m a hnone
    rw [news_append, h.known m a hbefore, hnews]
    rfl
  · exact h.blank m a (hp.before m a hnone).1

-- ================================================================ delivery

/-- What delivering an event does: whoever holds its asset's subject will
see it, and nobody else. -/
structure Delivers (D : RustDecimal) (s s' : System) (n : Nat)
    (event : AggregatedPriceChangeEvent) : Prop where
  queue : s.nats = (n, event) :: s'.nats
  store : s'.store = s.store
  published : s'.published = s.published
  fetches : s'.fetches = s.fetches
  stopped : s'.stopped = s.stopped
  missed : ∀ id asset, s'.missed id asset
    = (s.missed id asset || s.Overtakes (n, event) id asset)
  indexed : s'.registry.Indexed
  holds : ∀ id p, s'.registry.Holds id p ↔ s.registry.Holds id p
  seen : ∀ id m a, s.registry.Holds id (buildSubject m a) →
    s'.view D id (m, a)
      = patch (s.view D id (m, a)) (news D m a [(n, event)])
  unseen : ∀ id m a, ¬ s.registry.Holds id (buildSubject m a) →
    s'.view D id (m, a) = s.view D id (m, a)

theorem step_deliver {s s' : System} (h : s.Inv D)
    (hfits : s.Fits .deliver)
    (hstep : s.step D service .deliver = some s') :
    ∃ n event, Delivers D s s' n event := by
  unfold step at hstep
  cases hnats : s.nats with
  | nil =>
      rw [hnats] at hstep
      cases hstep
  | cons e nats =>
      obtain ⟨n, event⟩ := e
      rw [hnats] at hstep
      have hs' := (Option.some.inj hstep).symm
      have hmoved := moved_handleChange h.indexed event
        (hfits (n, event) (by rw [hnats]; rfl))
      have hsent := hmoved.channel
      have hregistry : s'.registry = handleChange s.registry event := by
        rw [hs']
      have hbooks : s'.books = s.books := by rw [hs']
      rw [← hregistry] at hmoved hsent
      have hmatched : ∀ id, id ∈ (s.registry.getMatchingSubscribers
            (buildSubject event.marketId event.assetId)).map (·.id)
          ↔ s.registry.Holds id
            (buildSubject event.marketId event.assetId) :=
        fun id => mem_ids_getMatchingSubscribers h.indexed
          fun id p => (h.served id).plain p
      have hview : ∀ id m a, s'.view D id (m, a)
          = if s.registry.Holds id
              (buildSubject event.marketId event.assetId)
            then patch (s.view D id (m, a)) (news D m a [(n, event)])
            else s.view D id (m, a) := by
        intro id m a
        have hchannel := hsent id
        split
        · next hsees =>
            rw [if_pos ((hmatched id).2 hsees)] at hchannel
            rw [view_snoc hchannel hbooks]
            exact receive_priceChange _ n event m a
        · next hsees =>
            rw [if_neg fun hc => hsees ((hmatched id).1 hc)] at hchannel
            rw [view_congr hchannel hbooks]
      refine ⟨n, event, ?_, by rw [hs'], by rw [hs'], by rw [hs'],
        by rw [hs'], fun id asset => by rw [hs'], hmoved.indexed,
        hmoved.holds, fun id m a hp => ?_, fun id m a hp => ?_⟩
      · rw [hs']
        exact hnats
      · by_cases hkey : event.marketId = m ∧ event.assetId = a
        · obtain ⟨rfl, rfl⟩ := hkey
          rw [hview, if_pos hp]
        · rw [hview, news_other hkey, patch_nil, ite_self]
      · by_cases hkey : event.marketId = m ∧ event.assetId = a
        · obtain ⟨rfl, rfl⟩ := hkey
          rw [hview, if_neg hp]
        · rw [hview, news_other hkey, patch_nil, ite_self]

/-- Delivering promises nothing more, and what is promised still is not
overtaken by the event. -/
theorem Delivers.promised {s s' : System} {n : Nat}
    {event : AggregatedPriceChangeEvent} (hd : Delivers D s s' n event)
    {id : ClientId} {m a : String} (h : s'.Promised id m a) :
    s.Promised id m a ∧ ¬ s.Overtakes (n, event) id (m, a) := by
  obtain ⟨hstopped, hmissed⟩ := h
  rw [hd.stopped] at hstopped
  rw [hd.missed, Bool.or_eq_false_iff, decide_eq_false_iff_not] at hmissed
  exact ⟨⟨hstopped, hmissed.1⟩, hmissed.2⟩

/-- An answer that the first event on its way does not overtake: either
it reflects the event already, or the event is about another asset. -/
theorem Pending.deliver {s s' : System} {n : Nat}
    {event : AggregatedPriceChangeEvent} (hd : Delivers D s s' n event)
    {m a : String} {orderbook : OrderbookHttpResponse} {readAt : Nat}
    (h : s.Pending D m a orderbook readAt)
    (horder : event.marketId = m → event.assetId = a → n < readAt) :
    s'.Pending D m a orderbook readAt := by
  obtain ⟨hle, older, newer, hqueue, hnumber, hold, hnew⟩ := h
  rw [hd.queue] at hqueue
  refine ⟨?_, ?_⟩
  · rw [hd.published]
    exact hle
  rw [hd.store]
  cases older with
  | cons e older =>
      obtain ⟨hhead, htail⟩ := List.cons.inj hqueue
      rw [← hhead, news_cons] at hold
      exact ⟨older, newer, htail, hnumber, settle_of_append hold, hnew⟩
  | nil =>
      have hqueue : (n, event) :: s'.nats = newer := hqueue
      rw [← hqueue] at hnumber hnew
      have hother : ¬(event.marketId = m ∧ event.assetId = a) := by
        intro hkey
        have hlt := horder hkey.1 hkey.2
        have hge := hnumber _ (List.mem_cons_self ..)
        exact absurd hge (not_le.2 hlt)
      rw [news_cons, news_other hother] at hnew
      exact ⟨[], s'.nats, rfl,
        fun e he => hnumber e (List.mem_cons_of_mem _ he), rfl, hnew⟩

theorem Served.deliver {s s' : System} {n : Nat}
    {event : AggregatedPriceChangeEvent} (hd : Delivers D s s' n event)
    {id : ClientId} (h : s.Served D id) : s'.Served D id := by
  refine ⟨fun p hp => ?_, fun f hf => ?_,
    fun f answer orderbook hf hanswer hresponse => ?_,
    fun m a hkept hexact hp hf => ?_,
    fun f answer orderbook hkept hf hanswer hresponse => ?_⟩
  · exact h.plain p ((hd.holds id p).1 hp)
  · rw [hd.fetches] at hf
    exact (hd.holds id _).2 (h.fetching f hf)
  · rw [hd.fetches] at hf
    exact (h.found f answer orderbook hf hanswer hresponse).congr hd.store
  · rw [hd.fetches] at hf
    have hp' := (hd.holds id _).1 hp
    have hc := h.current m a (hd.promised hkept).1 hexact hp' hf
    unfold Current at hc ⊢
    rw [hd.seen id m a hp', hd.store, ← patch_append, ← news_cons,
      ← hd.queue]
    exact hc
  · rw [hd.fetches] at hf
    obtain ⟨hbefore, hbehind⟩ := hd.promised hkept
    refine (h.answered f answer orderbook hbefore hf hanswer
      hresponse).deliver hd fun hm ha => ?_
    by_contra hle
    exact hbehind ⟨Prod.ext hm ha, f, hf, rfl, answer, hanswer,
      by rw [hresponse]; rfl, not_lt.1 hle⟩

theorem Inv.deliver {s s' : System} (h : s.Inv D)
    (hfits : s.Fits .deliver)
    (hstep : s.step D service .deliver = some s') : s'.Inv D := by
  obtain ⟨n, event, hd⟩ := step_deliver h hfits hstep
  refine ⟨hd.indexed, ?_, fun m a hne => ?_, fun m a hnone => ?_,
    fun m a hnone id => ?_, fun id => (h.served id).deliver hd⟩
  · rw [hd.store]
    exact h.keyed
  · rw [hd.stopped] at hne
    have hbefore := h.settled m a hne
    rw [hd.queue, news_cons] at hbefore
    rw [hd.store]
    exact settle_of_append hbefore
  · rw [hd.store] at hnone
    have hbefore := h.known m a hnone
    rw [hd.queue, news_cons] at hbefore
    exact (List.append_eq_nil_iff.1 hbefore).2
  · -- the event says nothing about a book there is not
    rw [hd.store] at hnone
    have hnews := h.known m a hnone
    rw [hd.queue, news_cons] at hnews
    by_cases hp : s.registry.Holds id (buildSubject m a)
    · rw [hd.seen id m a hp, (List.append_eq_nil_iff.1 hnews).1, patch_nil]
      exact h.blank m a hnone id
    · rw [hd.unseen id m a hp]
      exact h.blank m a hnone id

-- ================================================ connecting and receiving

theorem Inv.connect {s s' : System} (h : s.Inv D) {id : ClientId}
    {now : Int}
    (hstep : s.step D service (.connect id now) = some s') :
    s'.Inv D := by
  unfold step at hstep
  simp only at hstep
  split at hstep
  · cases hstep
  · next hfresh =>
      have hfresh : s.registry.clients.lookup id = none :=
        Option.not_isSome_iff_eq_none.1 hfresh
      obtain rfl := Option.some.inj hstep
      have hs : AtGateway s { s with
          registry := s.registry.register (.new id now) } :=
        ⟨rfl, rfl, rfl, rfl⟩
      have hview : ∀ id', System.view D { s with
          registry := s.registry.register (.new id now) } id'
            = s.view D id' := by
        intro id'
        refine view_congr ?_ rfl
        show (s.registry.register (.new id now)).channel id' = _
        unfold channel
        rw [lookup_register]
        by_cases hid : id' = id
        · rw [if_pos hid, hid, hfresh]
          rfl
        · rw [if_neg hid]
      exact h.at_gateway hs (h.indexed.register now hfresh)
        (fun m a _ id' => by rw [hview])
        fun id' => (h.served id').frame hs rfl rfl
          (fun p => holds_register now hfresh) (hview id')

theorem Inv.receive {s s' : System} (h : s.Inv D) {id : ClientId}
    (hstep : s.step D service (.receive id) = some s') : s'.Inv D := by
  unfold step at hstep
  simp only at hstep
  split at hstep
  · next msg rest htx =>
      obtain ⟨client, hc, hqueue⟩ := Option.map_eq_some_iff.1 htx
      have hs' := (Option.some.inj hstep).symm
      have hs : AtGateway s s' := by
        rw [hs']
        exact ⟨rfl, rfl, rfl, rfl⟩
      have hview : ∀ id', s'.view D id' = s.view D id' := by
        intro id'
        rw [hs']
        unfold view
        show List.foldl _ (Function.update s.books id _ id')
          ((s.registry.modifyClient id _).channel id') = _
        rw [channel_modifyClient]
        by_cases hid : id' = id
        · -- the first message moves from the channel into the books
          subst hid
          have hchannel : s.registry.channel id' = msg :: rest := by
            rw [channel_eq hc, hqueue]
          rw [if_pos rfl, Function.update_self, hchannel, hc,
            List.foldl_cons]
          show List.foldl _ _ client.tx.tail = _
          rw [hqueue]
          rfl
        · rw [if_neg hid, Function.update_of_ne hid]
      refine h.at_gateway hs ?_ (fun m a _ id' => by rw [hview])
        fun id' => (h.served id').frame hs (by rw [hs']) (by rw [hs'])
          (fun p => ?_) (hview id')
      · rw [hs']
        exact h.indexed.modifyClient id (fun _ => rfl) fun _ => rfl
      · rw [hs']
        exact holds_modifyClient_frame fun _ => rfl
  · cases hstep

end System

end Wup.Gateway
