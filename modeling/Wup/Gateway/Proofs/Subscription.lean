/-
The life of a subscription, and what its client ends up with.

A subscription brings a client from knowing nothing about an asset to
being current, by way of a request and an answer. While the request waits
nothing is asked of the client's view; the answer is read off a store
whose events on their way are all reflected in it (`Inv.answer`); when it
arrives it replaces the view, and the events still on their way make up
the rest (`Inv.arrive`).

`updates_kept` puts the steps together: over every run in which no buffer
overflows, a client to which nothing is in flight holds the store's book
of each asset it subscribed to whose last snapshot was not overtaken.
Where one was, or where the arithmetic panicked, it may not
(`changes_lost`).
-/
import Wup.Gateway.Proofs.Delivery

namespace Wup.Gateway

open ChangeFeed ClientRegistry

variable {D : RustDecimal}

-- ========================================================== exact subjects

/-- An exact subject contains no wildcard character. -/
theorem ExactSubject.plain {m a : String} (h : ExactSubject m a) :
    isWildcardPattern (buildSubject m a) = false := by
  unfold ExactSubject snapshotTarget at h
  simp only at h
  split at h
  · cases h
  · split at h
    · cases h
    · next hplain => exact Bool.eq_false_iff.2 hplain

/-- An exact subject determines its asset. -/
theorem ExactSubject.inj {m a m' a' : String} (h : ExactSubject m a)
    (h' : ExactSubject m' a')
    (hsubject : buildSubject m' a' = buildSubject m a) :
    m' = m ∧ a' = a := by
  unfold ExactSubject at h h'
  rw [hsubject, h] at h'
  obtain ⟨hm, ha⟩ := SnapshotTarget.asset.inj (Except.ok.inj h')
  exact ⟨hm.symm, ha.symm⟩

namespace System

variable {service : OrderbookService} {s s' : System} {id : ClientId}
  {now : Int} {m a : String}

/-- One more message that says nothing about a book is not seen. -/
theorem view_inert (id : ClientId) (msg : Message) (hmsg : Inert msg)
    (hchannel : ∀ id', s'.registry.channel id'
      = if id' = id then s.registry.channel id' ++ [msg]
        else s.registry.channel id')
    (hbooks : s'.books = s.books) (id' : ClientId) :
    s'.view D id' = s.view D id' := by
  have hsent := hchannel id'
  split at hsent
  · rw [view_snoc hsent hbooks, receive_inert hmsg]
  · exact view_congr hsent hbooks

-- ================================================================== asking

/-- What a subscription does: it is refused, or the client holds the
subject and waits for a snapshot. No view changes. -/
theorem step_subscribe (h : s.Inv D)
    (hfits : s.Fits (.subscribe id now m a))
    (hstep : s.step D service (.subscribe id now m a) = some s') :
    ExactSubject m a ∧ s.fetches.lookup id = none ∧ AtGateway s s'
      ∧ s'.missed = s.missed ∧ s'.registry.Indexed
      ∧ (∀ id', s'.view D id' = s.view D id')
      ∧ ((s'.fetches = s.fetches
          ∧ ∀ id' p, s'.registry.Holds id' p ↔ s.registry.Holds id' p)
        ∨ (s'.fetches = s.fetches.insert id ⟨m, a, none⟩
          ∧ ∀ id' p, s'.registry.Holds id' p
            ↔ (p = buildSubject m a ∧ id' = id)
              ∨ s.registry.Holds id' p)) := by
  unfold step at hstep
  simp only at hstep
  split at hstep
  · next hguard =>
      obtain ⟨hreg, hidle, hexact⟩ := hguard
      have hs' := (Option.some.inj hstep).symm
      have hs : AtGateway s s' := by
        rw [hs']
        exact ⟨rfl, rfl, rfl, rfl⟩
      have hbooks : s'.books = s.books := by rw [hs']
      have hregistry : s'.registry = (handleMessage s.registry id now
          (.subscribe [buildSubject m a])).1 := by rw [hs']
      refine ⟨hexact, Option.isNone_iff_eq_none.1 hidle, hs, by rw [hs'],
        ?_⟩
      obtain ⟨client, hc⟩ := Option.isSome_iff_exists.1 hreg
      rcases handleMessage_subscribe h.indexed hc (hfits client hc) now
          (buildSubject m a) with
        ⟨text, code, hrefused, hmoved⟩ | ⟨haccepted, hmoved⟩
      · rw [← hregistry] at hmoved
        refine ⟨hmoved.indexed, view_inert id (.text (.error text code))
          trivial hmoved.channel hbooks, Or.inl ⟨?_, hmoved.holds⟩⟩
        rw [hs']
        exact if_pos hrefused
      · rw [← hregistry] at hmoved
        refine ⟨hmoved.indexed, view_inert id (.text (.subscribed _))
          trivial hmoved.channel hbooks, Or.inr ⟨?_, fun id' p => ?_⟩⟩
        · rw [hs']
          exact if_neg (by rw [haccepted]; simp)
        · rw [hmoved.holds, holds_subscribeTo hreg]
  · cases hstep

/-- A client that subscribes waits, and is current of everything else. -/
theorem Inv.served_subscribe (h : s.Inv D) (hs : AtGateway s s')
    (hmissed : s'.missed = s.missed) (hexact : ExactSubject m a)
    (hidle : s.fetches.lookup id = none)
    (hfetch : s'.fetches.lookup id = some ⟨m, a, none⟩)
    (hholds : ∀ p, s'.registry.Holds id p
      ↔ p = buildSubject m a ∨ s.registry.Holds id p)
    (hview : s'.view D id = s.view D id) : s'.Served D id := by
  have hserved := h.served id
  refine ⟨fun p hp => ?_, fun f hf => ?_,
    fun f answer orderbook hf hanswer _ => ?_,
    fun m' a' hkept hexact' hp hfree => ?_,
    fun f answer orderbook _ hf hanswer _ => ?_⟩
  · rcases (hholds p).1 hp with rfl | hp
    · exact hexact.plain
    · exact hserved.plain p hp
  · rw [hfetch] at hf
    obtain rfl := Option.some.inj hf
    exact (hholds _).2 (Or.inl rfl)
  · rw [hfetch] at hf
    obtain rfl := Option.some.inj hf
    cases hanswer
  · refine Current.congr hs (by rw [hview]) ?_
    rcases (hholds _).1 hp with hsubject | hp
    · -- the new subscription waits for its snapshot
      obtain ⟨rfl, rfl⟩ := hexact.inj hexact' hsubject
      obtain ⟨answer, hanswer, -⟩ := hfree _ hfetch rfl rfl
      cases hanswer
    · -- the client was not waiting
      have hbefore := (promised_congr hs.stopped (by rw [hmissed])).1 hkept
      refine hserved.current m' a' hbefore hexact' hp fun f hf => ?_
      rw [hidle] at hf
      cases hf
  · rw [hfetch] at hf
    obtain rfl := Option.some.inj hf
    cases hanswer

theorem Inv.subscribe (h : s.Inv D)
    (hfits : s.Fits (.subscribe id now m a))
    (hstep : s.step D service (.subscribe id now m a) = some s') :
    s'.Inv D := by
  obtain ⟨hexact, hidle, hs, hmissed, hindexed, hview, hcase⟩ :=
    step_subscribe h hfits hstep
  refine h.at_gateway hs hindexed (fun m a _ id' => by rw [hview])
    fun id' => ?_
  rcases hcase with ⟨hfetches, hholds⟩ | ⟨hfetches, hholds⟩
  · exact (h.served id').frame hs (by rw [hfetches]) (by rw [hmissed])
      (hholds id') (hview id')
  · have hfetch : s'.fetches.lookup id'
        = if id' = id then some ⟨m, a, none⟩
          else s.fetches.lookup id' := by
      rw [hfetches]
      exact HashMap.lookup_insert' ..
    by_cases hid : id' = id
    · subst hid
      rw [if_pos rfl] at hfetch
      refine h.served_subscribe hs hmissed hexact hidle hfetch (fun p => ?_)
        (hview id')
      rw [hholds id' p, and_iff_left rfl]
    · rw [if_neg hid] at hfetch
      refine (h.served id').frame hs hfetch (by rw [hmissed]) (fun p => ?_)
        (hview id')
      rw [hholds id' p, or_iff_right fun hc => hid hc.2]

-- =============================================================== answering

/-- What answering a request does: the answer is the book read off the
store, if there is one and it can be read. -/
structure Answers (D : RustDecimal) (s s' : System) (id : ClientId)
    (m a : String) (read : OrPanic (Option OrderbookResponse)) :
    Prop where
  reads : OrPanic.get D s.store m a none = read
  asked : s.fetches.lookup id = some ⟨m, a, none⟩
  frame : AtGateway s s'
  registry : s'.registry = s.registry
  books : s'.books = s.books
  fetches : ∀ id', s'.fetches.lookup id'
    = if id' = id then some ⟨m, a, some
        ⟨read.toOption.join.map .ofResponse, s.published⟩⟩
      else s.fetches.lookup id'
  missed : ∀ id' asset, s'.missed id' asset
    = if id' = id ∧ asset = (m, a) then !read.isOk else s.missed id' asset

theorem step_answer (hstep : s.step D service (.answer id) = some s') :
    ∃ m a read, Answers D s s' id m a read := by
  unfold step at hstep
  simp only at hstep
  split at hstep
  · next m a hasked =>
      obtain rfl := Option.some.inj hstep
      refine ⟨m, a, _, rfl, hasked, ⟨rfl, rfl, rfl, rfl⟩, rfl, rfl,
        fun id' => HashMap.lookup_insert' .., fun id' asset => ?_⟩
      by_cases hid : id' = id
      · subst hid
        by_cases hasset : asset = (m, a)
        · subst hasset
          simp
        · simp [hasset]
      · simp [hid]
  · cases hstep

/-- At the moment of the read all events on their way are reflected in
the answer. -/
theorem Inv.pending_get (hD : D.Lawful) (h : s.Inv D)
    (hrunning : s.stopped ≠ some (m, a)) {response : OrderbookResponse}
    (hget : s.store.get D m a none = some response) :
    s.Pending D m a (.ofResponse response) s.published := by
  have hbook : answerBook D (.ofResponse response)
      = s.store.reported D m a := book_get hD hget 0
  refine ⟨le_rfl, s.nats, [], (List.append_nil _).symm,
    fun e he => (nomatch he), ?_, hbook⟩
  rw [hbook]
  exact h.settled m a hrunning

/-- A book that was read is one the plain reader has. -/
theorem Answers.get {read : OrPanic (Option OrderbookResponse)}
    (ha : Answers D s s' id m a read) {orderbook : OrderbookHttpResponse}
    (hresponse : read.toOption.join.map OrderbookHttpResponse.ofResponse
      = some orderbook) :
    ∃ response, s.store.get D m a none = some response
      ∧ .ofResponse response = orderbook ∧ read.isOk = true := by
  obtain ⟨response, hjoin, horderbook⟩ := Option.map_eq_some_iff.1 hresponse
  cases read with
  | error e => cases hjoin
  | ok found =>
      obtain rfl : found = some response := hjoin
      exact ⟨response,
        (OrPanic.get_agrees s.store m a none _ ha.reads).symm, horderbook,
        rfl⟩

/-- A promised asset whose request found nothing has no book. -/
theorem Answers.missing {read : OrPanic (Option OrderbookResponse)}
    (ha : Answers D s s' id m a read) (hkept : s'.Promised id m a)
    (hnone : read.toOption.join.map OrderbookHttpResponse.ofResponse
      = none) :
    s.store.bookAt m a = none := by
  have hmissed := hkept.2
  rw [ha.missed, if_pos ⟨rfl, rfl⟩] at hmissed
  cases read with
  | error e => cases hmissed
  | ok found =>
      obtain rfl : found = none := Option.map_eq_none_iff.1 hnone
      have hget := OrPanic.get_agrees s.store m a none _ ha.reads
      exact Option.map_eq_none_iff.1 hget.symm

/-- Whoever is answered waits for the arrival, or is current of a book
there is not. -/
theorem Answers.served {read : OrPanic (Option OrderbookResponse)}
    (ha : Answers D s s' id m a read) (hD : D.Lawful) (h : s.Inv D) :
    s'.Served D id := by
  have hserved := h.served id
  have hfetch := ha.fetches id
  rw [if_pos rfl] at hfetch
  have hview : s'.view D id = s.view D id :=
    view_congr (by rw [ha.registry]) ha.books
  refine ⟨?_, fun f hf => ?_,
    fun f answer orderbook hf hanswer hresponse => ?_,
    fun m' a' hkept hexact hp hfree => ?_,
    fun f answer orderbook hkept hf hanswer hresponse => ?_⟩
  · rw [ha.registry]
    exact hserved.plain
  · rw [hfetch] at hf
    obtain rfl := Option.some.inj hf
    rw [ha.registry]
    exact hserved.fetching ⟨m, a, none⟩ ha.asked
  · rw [hfetch] at hf
    obtain rfl := Option.some.inj hf
    obtain rfl := Option.some.inj hanswer
    obtain ⟨response, hget, rfl, -⟩ := ha.get hresponse
    obtain ⟨hm, ha'⟩ := ids_get h.keyed hget
    refine Found.congr ha.frame.store ⟨hm, ha', fun hnone => ?_⟩
    unfold OrderbookStore.get at hget
    rw [hnone] at hget
    cases hget
  · refine Current.congr ha.frame (by rw [hview]) ?_
    by_cases hkey : m = m' ∧ a = a'
    · -- not found: there is no book
      obtain ⟨rfl, rfl⟩ := hkey
      obtain ⟨answer, hanswer, hnone⟩ := hfree _ hfetch rfl rfl
      obtain rfl := Option.some.inj hanswer
      exact h.current_of_missing (ha.missing hkept hnone) id
    · have hsame := ha.missed id (m', a')
      rw [if_neg fun hc => hkey
        ⟨(congrArg Prod.fst hc.2).symm, (congrArg Prod.snd hc.2).symm⟩]
        at hsame
      rw [ha.registry] at hp
      refine hserved.current m' a'
        ((promised_congr ha.frame.stopped hsame).1 hkept) hexact hp
        fun f hf hm hasset => ?_
      rw [ha.asked] at hf
      obtain rfl := Option.some.inj hf
      exact absurd ⟨hm, hasset⟩ hkey
  · rw [hfetch] at hf
    obtain rfl := Option.some.inj hf
    obtain rfl := Option.some.inj hanswer
    obtain ⟨response, hget, rfl, -⟩ := ha.get hresponse
    have hrunning := hkept.1
    rw [ha.frame.stopped] at hrunning
    exact (h.pending_get hD hrunning hget).congr ha.frame

theorem Inv.answer (hD : D.Lawful) (h : s.Inv D)
    (hstep : s.step D service (.answer id) = some s') : s'.Inv D := by
  obtain ⟨m, a, read, ha⟩ := step_answer hstep
  have hview : ∀ id', s'.view D id' = s.view D id' :=
    fun id' => view_congr (by rw [ha.registry]) ha.books
  refine h.at_gateway ha.frame (ha.registry ▸ h.indexed)
    (fun m a _ id' => by rw [hview]) fun id' => ?_
  by_cases hid : id' = id
  · subst hid
    exact ha.served hD h
  · have hfetch := ha.fetches id'
    rw [if_neg hid] at hfetch
    refine (h.served id').frame ha.frame hfetch ?_
      (fun p => by rw [ha.registry]) (hview id')
    funext asset
    rw [ha.missed, if_neg fun hc => hid hc.1]

-- ================================================================ arriving

/-- What an arriving answer does: a book that was found is what its client
will see, and the client waits no longer. -/
structure Arrives (D : RustDecimal) (s s' : System) (id : ClientId)
    (f : Fetch) (answer : Answer) : Prop where
  asked : s.fetches.lookup id = some f
  answered : f.answer = some answer
  frame : AtGateway s s'
  missed : s'.missed = s.missed
  fetches : ∀ id', s'.fetches.lookup id'
    = if id' = id then none else s.fetches.lookup id'
  indexed : s'.registry.Indexed
  holds : ∀ id' p, s'.registry.Holds id' p ↔ s.registry.Holds id' p
  others : ∀ id', id' ≠ id → s'.view D id' = s.view D id'
  missing : answer.response = none → s'.view D id = s.view D id
  found : ∀ orderbook, answer.response = some orderbook →
    s'.view D id = Function.update (s.view D id)
      (f.marketId, f.assetId) (answerBook D orderbook)

theorem step_arrive (h : s.Inv D) (hfits : s.Fits (.arrive id now))
    (hstep : s.step D service (.arrive id now) = some s') :
    ∃ f answer, Arrives D s s' id f answer := by
  unfold step at hstep
  simp only at hstep
  split at hstep
  · next m a answer hf =>
      have hs' := (Option.some.inj hstep).symm
      have hs : AtGateway s s' := by
        rw [hs']
        exact ⟨rfl, rfl, rfl, rfl⟩
      have hbooks : s'.books = s.books := by rw [hs']
      have hregistry : s'.registry = (sendSnapshot s.registry id
          answer.response now).1 := by rw [hs']
      have hfetch : ∀ id', s'.fetches.lookup id'
          = if id' = id then none else s.fetches.lookup id' := by
        intro id'
        rw [hs']
        exact HashMap.lookup_erase' ..
      have hmissed : s'.missed = s.missed := by rw [hs']
      refine ⟨⟨m, a, some answer⟩, answer, ?_⟩
      cases hresponse : answer.response with
      | none =>
          rw [hresponse] at hregistry
          have hsame : s'.registry = s.registry := hregistry
          have hkeep : ∀ id', s'.view D id' = s.view D id' :=
            fun id' => view_congr (by rw [hsame]) hbooks
          exact ⟨hf, rfl, hs, hmissed, hfetch, hsame ▸ h.indexed,
            fun id' p => by rw [hsame], fun id' _ => hkeep id',
            fun _ => hkeep id,
            fun orderbook hc => (nomatch hresponse.symm.trans hc)⟩
      | some orderbook =>
          rw [hresponse] at hregistry
          obtain ⟨client, hc, -⟩ := (h.served id).fetching _ hf
          have hroom : client.HasRoom := hfits _ hf answer rfl
            (by rw [hresponse]; rfl) client hc
          have hmoved := (moved_send h.indexed hc hroom
            (.snapshot (orderbook.toOrderbookData now))).1
          have hregistry : s'.registry = (s.registry.send id
            (.snapshot (orderbook.toOrderbookData now))).1 := hregistry
          rw [← hregistry] at hmoved
          refine ⟨hf, rfl, hs, hmissed, hfetch, hmoved.indexed,
            hmoved.holds, fun id' hid => ?_,
            fun hc => (nomatch hresponse.symm.trans hc),
            fun orderbook' hc => ?_⟩
          · have hsent := hmoved.channel id'
            rw [if_neg hid] at hsent
            exact view_congr hsent hbooks
          · obtain rfl := Option.some.inj (hresponse.symm.trans hc)
            have hsent := hmoved.channel id
            rw [if_pos rfl] at hsent
            obtain ⟨hm, ha, -⟩ :=
              (h.served id).found _ answer orderbook hf rfl hresponse
            rw [view_snoc hsent hbooks, ← hm, ← ha]
            rfl
  · cases hstep

/-- An answer that replaces the view makes its client current. -/
theorem Pending.current {f : Fetch} {orderbook : OrderbookHttpResponse}
    {readAt : Nat} (hs : AtGateway s s')
    (h : s.Pending D f.marketId f.assetId orderbook readAt)
    (hview : s'.view D id (f.marketId, f.assetId)
      = answerBook D orderbook) :
    s'.Current D id f.marketId f.assetId := by
  obtain ⟨-, older, newer, hqueue, -, hold, hnew⟩ := h
  unfold Current
  rw [hview, hs.nats, hs.store, hqueue, news_append, patch_append, hold]
  exact hnew

/-- Only the view of the answer's own asset changes. -/
theorem Arrives.view_other {f : Fetch} {answer : Answer}
    (ha : Arrives D s s' id f answer) {m' a' : String}
    (hne : ¬(f.marketId = m' ∧ f.assetId = a')) :
    s'.view D id (m', a') = s.view D id (m', a') := by
  cases hresponse : answer.response with
  | none => rw [ha.missing hresponse]
  | some orderbook =>
      rw [ha.found orderbook hresponse, Function.update_of_ne]
      intro hkey
      exact hne ⟨(congrArg Prod.fst hkey).symm,
        (congrArg Prod.snd hkey).symm⟩

/-- Where there is no book, none was found. -/
theorem Arrives.view_blank {f : Fetch} {answer : Answer}
    (ha : Arrives D s s' id f answer) (h : s.Served D id) {m' a' : String}
    (hnone : s.store.bookAt m' a' = none) :
    s'.view D id (m', a') = s.view D id (m', a') := by
  by_cases hkey : f.marketId = m' ∧ f.assetId = a'
  · obtain ⟨rfl, rfl⟩ := hkey
    cases hresponse : answer.response with
    | none => rw [ha.missing hresponse]
    | some orderbook =>
        exact absurd hnone
          (h.found f answer orderbook ha.asked ha.answered
            hresponse).stored
  · exact ha.view_other hkey

/-- The client whose answer arrives waits for none, and is current. -/
theorem Arrives.served {f : Fetch} {answer : Answer}
    (ha : Arrives D s s' id f answer) (h : s.Served D id) :
    s'.Served D id := by
  have hidle : s'.fetches.lookup id = none := by
    rw [ha.fetches, if_pos rfl]
  refine ⟨fun p hp => ?_, fun f' hf' => ?_, fun f' _ _ hf' => ?_,
    fun m' a' hkept hexact hp _ => ?_, fun f' _ _ _ hf' => ?_⟩
  · exact h.plain p ((ha.holds id p).1 hp)
  · rw [hidle] at hf'
    cases hf'
  · rw [hidle] at hf'
    cases hf'
  · have hp' := (ha.holds id _).1 hp
    have hkept' :=
      (promised_congr ha.frame.stopped (by rw [ha.missed])).1 hkept
    by_cases hkey : f.marketId = m' ∧ f.assetId = a'
    · obtain ⟨rfl, rfl⟩ := hkey
      cases hresponse : answer.response with
      | none =>
          -- nothing was found, and nothing is sent
          refine Current.congr ha.frame (by rw [ha.missing hresponse]) ?_
          refine h.current _ _ hkept' hexact hp' fun f' hf' _ _ => ?_
          rw [ha.asked] at hf'
          obtain rfl := Option.some.inj hf'
          exact ⟨answer, ha.answered, hresponse⟩
      | some orderbook =>
          refine (h.answered f answer orderbook hkept' ha.asked ha.answered
            hresponse).current ha.frame ?_
          rw [ha.found orderbook hresponse, Function.update_self]
    · refine Current.congr ha.frame (ha.view_other hkey) ?_
      refine h.current m' a' hkept' hexact hp' fun f' hf' hm hasset => ?_
      rw [ha.asked] at hf'
      obtain rfl := Option.some.inj hf'
      exact absurd ⟨hm, hasset⟩ hkey
  · rw [hidle] at hf'
    cases hf'

theorem Inv.arrive (h : s.Inv D) (hfits : s.Fits (.arrive id now))
    (hstep : s.step D service (.arrive id now) = some s') : s'.Inv D := by
  obtain ⟨f, answer, ha⟩ := step_arrive h hfits hstep
  refine h.at_gateway ha.frame ha.indexed (fun m' a' hnone id' => ?_)
    fun id' => ?_
  · by_cases hid : id' = id
    · subst hid
      exact ha.view_blank (h.served id') hnone
    · rw [ha.others id' hid]
  · by_cases hid : id' = id
    · subst hid
      exact ha.served (h.served id')
    · have hfetch := ha.fetches id'
      rw [if_neg hid] at hfetch
      exact (h.served id').frame ha.frame hfetch (by rw [ha.missed])
        (ha.holds id') (ha.others id' hid)

-- ================================================================ the runs

theorem inv_start (history : List NormalizedOrderbook) :
    (start D history).Inv D := by
  have hfree : ∀ id p, ¬ (start D history).registry.Holds id p := by
    intro id p hp
    obtain ⟨client, hc, -⟩ := hp
    cases hc
  refine ⟨indexed_new, keyed_runStore history, fun m a _ => rfl,
    fun m a _ => rfl, fun m a _ id => rfl, fun id => ?_⟩
  exact ⟨fun p hp => absurd hp (hfree id p), fun f hf => (nomatch hf),
    fun f _ _ hf => (nomatch hf),
    fun m a _ _ hp => absurd hp (hfree id _),
    fun f _ _ _ hf => (nomatch hf)⟩

/-- Every orderly step keeps the invariant. -/
theorem Inv.step (hD : D.Lawful) (hpublish : service.publishChanges = true)
    (h : s.Inv D) {action : Action} (horderly : s.Orderly action)
    (hstep : s.step D service action = some s') : s'.Inv D := by
  obtain ⟨hdelta, hfits⟩ := horderly
  cases action with
  | process msg now => exact h.process hD hpublish hdelta hstep
  | deliver => exact h.deliver hfits hstep
  | connect id now => exact h.connect hstep
  | subscribe id now m a => exact h.subscribe hfits hstep
  | answer id => exact h.answer hD hstep
  | arrive id now => exact h.arrive hfits hstep
  | receive id => exact h.receive hstep

/-- Over every run in which no buffer overflows, a client to which nothing
is in flight holds the store's aggregated book of each asset it subscribed
to, if it is promised. -/
theorem updates_kept (hD : D.Lawful)
    (hpublish : service.publishChanges = true)
    {history : List NormalizedOrderbook}
    (hrun : Runs.Reached (step D service) Orderly (start D history) s)
    (hexact : ExactSubject m a)
    (hsubscribed : s.registry.Holds id (buildSubject m a))
    (hquiet : s.Quiet id) (hkept : s.Promised id m a) :
    s.books id (m, a) = s.store.reported D m a := by
  have hinv : s.Inv D := hrun.invariant (inv_start history)
    fun s action s' h => h.step hD hpublish
  obtain ⟨hnats, hidle, hreceived⟩ := hquiet
  have hcurrent : s.Current D id m a := by
    refine (hinv.served id).current m a hkept hexact hsubscribed
      fun f hf => ?_
    rw [hidle] at hf
    cases hf
  obtain ⟨client, hc, -⟩ := hsubscribed
  have hview : s.view D id = s.books id := by
    unfold view
    rw [channel_eq hc, hreceived client hc]
    rfl
  unfold Current at hcurrent
  rw [hview, hnats] at hcurrent
  exact hcurrent

/-- The client has subscribed, nothing is in flight to it, and its book is
not the store's. -/
def Lost (D : RustDecimal) (s : System) (id : ClientId) (m a : String) :
    Prop :=
  ExactSubject m a ∧ s.registry.Holds id (buildSubject m a) ∧ s.Quiet id
    ∧ s.books id (m, a) ≠ s.store.reported D m a

/-- A level that only one of the two has is enough. -/
theorem lost_of_level {k : LevelKey} (hexact : ExactSubject m a)
    (hsubscribed : s.registry.Holds id (buildSubject m a))
    (hquiet : s.Quiet id)
    (hlevel : (s.books id (m, a) k).isSome
      ≠ (s.store.reported D m a k).isSome) : s.Lost D id m a :=
  ⟨hexact, hsubscribed, hquiet, fun h => hlevel (by rw [h])⟩

/-- Changes are lost in each of three ways: an event that is fanned out
before an older snapshot arrives, and the client keeps a level that the
store has not; a book that cannot be read when it is asked for, and the
client lacks a level; a change that cannot be published. -/
theorem changes_lost :
    (∃ s, Runs.Reached (step rustDecimal ⟨none, true⟩) Orderly
        (start rustDecimal []) s
      ∧ s.Lost rustDecimal 1 "m" "t"
      ∧ (OrPanic.get rustDecimal s.store "m" "t" none).isOk = true)
    ∧ (∃ s, Runs.Reached (step rustDecimal ⟨none, true⟩) Orderly
        (start rustDecimal []) s
      ∧ s.Lost rustDecimal 1 "m" "t" ∧ s.published = 2
      ∧ s.stopped = none)
    ∧ ∃ s, Runs.Reached (step rustDecimal ⟨none, true⟩) Orderly
        (start rustDecimal []) s
      ∧ s.Lost rustDecimal 1 "m" "t"
      ∧ s.stopped = some ("m", "t") := by
  have hexact : ExactSubject "m" "t" := by decide +kernel
  refine ⟨?_, ?_, ?_⟩
  · -- the level is removed between the read and the arrival
    let actions : List Action :=
      [.process (.deltaOf "polymarket" "m" "t" [⟨.buy, "0.5", "10"⟩]) 1,
        .deliver, .connect 1 2, .subscribe 1 3 "m" "t", .answer 1,
        .process (.deltaOf "polymarket" "m" "t" [⟨.buy, "0.5", "0"⟩]) 4,
        .deliver, .arrive 1 5, .receive 1, .receive 1, .receive 1]
    obtain ⟨s, hrun, hheld, hquiet, hlevel, hread⟩ : ∃ s,
        Runs.Reached (step rustDecimal ⟨none, true⟩) Orderly
          (start rustDecimal []) s
        ∧ s.registry.Holds 1 (buildSubject "m" "t") ∧ s.Quiet 1
        ∧ (s.books 1 ("m", "t") (.buy, 1 / 2)).isSome
          ≠ (s.store.reported rustDecimal "m" "t" (.buy, 1 / 2)).isSome
        ∧ (OrPanic.get rustDecimal s.store "m" "t" none).isOk = true :=
      Runs.exists_reached actions (by decide +kernel)
    exact ⟨s, hrun, lost_of_level hexact hheld hquiet hlevel, hread⟩
  · -- the depth of the side is out of range until a level goes
    let actions : List Action :=
      [.process (.deltaOf "polymarket" "m" "t"
          [⟨.buy, "0.5", "79228162514264337593543950335"⟩,
            ⟨.buy, "0.4", "79228162514264337593543950335"⟩]) 1,
        .deliver, .connect 1 2, .subscribe 1 3 "m" "t", .answer 1,
        .arrive 1 4,
        .process (.deltaOf "polymarket" "m" "t" [⟨.buy, "0.4", "0"⟩]) 5,
        .deliver, .receive 1, .receive 1]
    obtain ⟨s, hrun, hheld, hquiet, hlevel, hpublished, hstopped⟩ : ∃ s,
        Runs.Reached (step rustDecimal ⟨none, true⟩) Orderly
          (start rustDecimal []) s
        ∧ s.registry.Holds 1 (buildSubject "m" "t") ∧ s.Quiet 1
        ∧ (s.books 1 ("m", "t") (.buy, 1 / 2)).isSome
          ≠ (s.store.reported rustDecimal "m" "t" (.buy, 1 / 2)).isSome
        ∧ s.published = 2 ∧ s.stopped = none :=
      Runs.exists_reached actions (by decide +kernel)
    exact ⟨s, hrun, lost_of_level hexact hheld hquiet hlevel, hpublished,
      hstopped⟩
  · -- two platforms at one price, each with the largest size there is
    let actions : List Action :=
      [.process (.deltaOf "polymarket" "m" "t"
          [⟨.buy, "0.5", "79228162514264337593543950335"⟩]) 1,
        .deliver, .connect 1 2, .subscribe 1 3 "m" "t", .answer 1,
        .arrive 1 4, .receive 1, .receive 1,
        .process (.deltaOf "kalshi" "m" "t"
          [⟨.buy, "0.5", "79228162514264337593543950335"⟩,
            ⟨.buy, "0.4", "10"⟩]) 5]
    obtain ⟨s, hrun, hheld, hquiet, hlevel, hstopped⟩ : ∃ s,
        Runs.Reached (step rustDecimal ⟨none, true⟩) Orderly
          (start rustDecimal []) s
        ∧ s.registry.Holds 1 (buildSubject "m" "t") ∧ s.Quiet 1
        ∧ (s.books 1 ("m", "t") (.buy, 2 / 5)).isSome
          ≠ (s.store.reported rustDecimal "m" "t" (.buy, 2 / 5)).isSome
        ∧ s.stopped = some ("m", "t") :=
      Runs.exists_reached actions (by decide +kernel)
    exact ⟨s, hrun, lost_of_level hexact hheld hquiet hlevel, hstopped⟩

/-- The same change, fanned out after the snapshot of client 1, and before
that of client 2: client 1 has the store's book all the same. -/
theorem updates_kept_newer_change :
    ∃ s, Runs.Reached (step rustDecimal ⟨none, true⟩) Orderly
        (start rustDecimal []) s
      ∧ s.published = 2 ∧ s.missed 2 ("m", "t") = true
      ∧ s.books 1 ("m", "t") = s.store.reported rustDecimal "m" "t" := by
  let actions : List Action :=
    [.process (.deltaOf "polymarket" "m" "t" [⟨.buy, "0.5", "10"⟩]) 1,
      .connect 1 2, .connect 2 2, .subscribe 1 3 "m" "t", .answer 1,
      .subscribe 2 3 "m" "t", .answer 2,
      .process (.deltaOf "polymarket" "m" "t" [⟨.buy, "0.5", "0"⟩]) 4,
      .deliver, .arrive 1 5, .deliver, .arrive 2 6,
      .receive 1, .receive 1, .receive 1, .receive 1]
  obtain ⟨s, hrun, hpublished, hmissed, hheld, hquiet, hkept⟩ : ∃ s,
      Runs.Reached (step rustDecimal ⟨none, true⟩) Orderly
        (start rustDecimal []) s
      ∧ s.published = 2 ∧ s.missed 2 ("m", "t") = true
      ∧ s.registry.Holds 1 (buildSubject "m" "t") ∧ s.Quiet 1
      ∧ s.Promised 1 "m" "t" :=
    Runs.exists_reached actions (by decide +kernel)
  have hpublish : (OrderbookService.mk none true).publishChanges = true :=
    rfl
  exact ⟨s, hrun, hpublished, hmissed, updates_kept rustDecimal_lawful
    hpublish hrun (by decide +kernel) hheld hquiet hkept⟩

end System

end Wup.Gateway
