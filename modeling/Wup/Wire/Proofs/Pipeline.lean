/-
The asynchronous system on texts does what one sequence of messages does.

Each consumer is a stage whose queue holds texts of records (`Flows`): the
orderbook service behind the connections, the executor's cache and the
gateway behind the service. A step of the system is a step of one stage on
the record its payload was written from, because what is written reads
back and is delivered under its subject; so `Flows` is an invariant.

What the runs lead to is in Wire/Proofs/Sequence.lean.
-/
import Wup.Lib.Stages
import Wup.Wire.Pipeline
import Wup.Wire.Proofs.Consumers
import Wup.Wire.Proofs.Frames

namespace Wup

open Executor (BboCache)
open Gateway (ClientRegistry SocketAction buildSubject)
open Normalizer (publishNormalized)
open Polymarket.PolymarketHandler (adapterConfig normalizeFrame)

-- ================================================================== stages

variable (D : RustDecimal) (J : SerdeJson) (service : OrderbookService)

/-- What the service takes: a message of a connection, the time, and
whether its own publication succeeds. -/
abbrev ServiceInput (Worker : Type) :=
  (Worker × NormalizedOrderbook) × Int × Bool

/-- What a message is answered with. -/
def answer (store : OrderbookStore) {Worker : Type}
    (input : ServiceInput Worker) : List AggregatedPriceChangeEvent :=
  if input.2.2 then
    ((service.processMessage D store input.1.2 input.2.1).2.map
      (·.2)).toList
  else []

def serviceStage (Worker : Type) : Stage OrderbookStore
    (Worker × NormalizedOrderbook) (ServiceInput Worker)
    AggregatedPriceChangeEvent where
  takes input := some input.1
  step store input :=
    some ((service.processMessage D store input.1.2 input.2.1).1,
      answer D service store input)

/-- The cache's task, with whether it is blocked. -/
def cacheStage : Stage (BboCache × Bool) AggregatedPriceChangeEvent
    AggregatedPriceChangeEvent Empty where
  takes event := some event
  step s event :=
    if s.2 then none
    else
      let r := s.1.handleChange D (.ofEvent event)
      some ((r.1, decide (r.2 = some .blocked)), [])

def gatewayStage : Stage ClientRegistry AggregatedPriceChangeEvent
    SocketAction Empty where
  takes := routed
  step registry action :=
    (registry.socketStep action).map fun registry => (registry, [])

-- ==================================================== what the queues hold

/-- A published event. -/
def eventPublication (event : AggregatedPriceChangeEvent) : Publication where
  subject := "orderbook.changes." ++ event.marketId ++ "." ++ event.assetId
  payload := event.toString J

theorem delivers_publishNormalized {nats : Nats} (hnats : nats.Lawful)
    {msg : NormalizedOrderbook} (hmsg : msg.Legal) :
    nats.Delivers orderbookServiceSubject
      (publishNormalized J adapterConfig msg) := by
  have hpattern : orderbookServiceSubject
      = adapterConfig.outputSubjectPrefix ++ ".>" := by
    simp [orderbookServiceSubject, adapterConfig]
  unfold Nats.Delivers
  rw [Normalizer.subject_publishNormalized, hpattern]
  exact hnats.isMatch_buildSubject (by decide)
    (legalSubject_buildSubject.2 hmsg)

/-- The ids of an event can be part of a subject. -/
def AggregatedPriceChangeEvent.Legal (event : AggregatedPriceChangeEvent) :
    Prop :=
  LegalSubject event.marketId ∧ LegalSubject event.assetId

theorem delivers_eventPublication {nats : Nats} (hnats : nats.Lawful)
    {event : AggregatedPriceChangeEvent} (hevent : event.Legal) :
    nats.Delivers bboCacheSubject (eventPublication J event)
      ∧ nats.Delivers routerSubject (eventPublication J event) := by
  have hpattern : bboCacheSubject = "orderbook.changes" ++ ".>" := by
    simp [bboCacheSubject]
  have hsubject : (eventPublication J event).subject
      = buildSubject "orderbook.changes"
          (buildSubject event.marketId event.assetId) := by
    unfold eventPublication buildSubject
    simp [String.append_assoc]
  have h : nats.Delivers bboCacheSubject (eventPublication J event) := by
    unfold Nats.Delivers
    rw [hsubject, hpattern]
    exact hnats.isMatch_buildSubject (by decide)
      (legalSubject_buildSubject.2 hevent)
  exact ⟨h, h⟩

theorem foldl_deliver {nats : Nats} {pattern : String}
    {pubs : List Publication}
    (h : ∀ pub ∈ pubs, nats.Delivers pattern pub)
    (queue : List Publication) :
    pubs.foldl (deliver nats pattern) queue = queue ++ pubs := by
  induction pubs generalizing queue with
  | nil => simp
  | cons pub pubs ih =>
      obtain ⟨hpub, hpubs⟩ := List.forall_mem_cons.1 h
      rw [List.foldl_cons, ih hpubs, deliver, if_pos hpub,
        List.append_assoc, List.singleton_append]

/-- An answer carries the time of its message. -/
theorem timely_answer {Worker : Type} {store : OrderbookStore}
    {input : ServiceInput Worker}
    (htime : -2 ^ 63 ≤ input.2.1 ∧ input.2.1 < 2 ^ 63)
    {event : AggregatedPriceChangeEvent}
    (h : event ∈ answer D service store input) : event.Timely := by
  unfold answer at h
  split_ifs at h
  · obtain ⟨e, he, rfl⟩ := Option.map_eq_some_iff.1 (Option.mem_toList.1 h)
    obtain ⟨-, hpublished⟩ := Option.ite_none_right_eq_some.1 he
    rw [← Option.some.inj hpublished]
    exact htime
  · cases h

/-- And its ids. -/
theorem legal_answer {Worker : Type} {store : OrderbookStore}
    {input : ServiceInput Worker} (hlegal : input.1.2.Legal)
    {event : AggregatedPriceChangeEvent}
    (h : event ∈ answer D service store input) : event.Legal := by
  unfold answer at h
  split_ifs at h
  · obtain ⟨e, he, rfl⟩ := Option.map_eq_some_iff.1 (Option.mem_toList.1 h)
    obtain ⟨-, hpublished⟩ := Option.ite_none_right_eq_some.1 he
    rw [← Option.some.inj hpublished]
    exact hlegal
  · cases h

variable {J} in
/-- Processing a payload is processing the message it was written from. -/
theorem processPayload_toString (hJ : J.Lawful) {msg : NormalizedOrderbook}
    (htime : msg.Timely)
    (store : OrderbookStore) (now : Int) :
    service.processPayload D J store (msg.toString J) now
      = ((service.processMessage D store msg now).1,
          (service.processMessage D store msg now).2.map fun e =>
            eventPublication J e.2) := by
  have hevent : ∀ e ∈ (service.processMessage D store msg now).2,
      e.1 = "orderbook.changes." ++ e.2.marketId ++ "." ++ e.2.assetId := by
    intro e he
    obtain ⟨-, hpublished⟩ := Option.ite_none_right_eq_some.1 he
    rw [← Option.some.inj hpublished]
    rfl
  unfold OrderbookService.processPayload
  rw [NormalizedOrderbook.fromStr_toString hJ htime]
  simp only [Prod.mk.injEq, true_and]
  refine Option.map_congr fun e he => ?_
  rw [hevent e he]
  rfl

-- =========================================================== the invariant

/-- What is behind the texts of a state. -/
structure Contents (Worker : Type) where
  /-- What a connection has still to publish. -/
  pending : Worker → List NormalizedOrderbook
  /-- What was published, in the order NATS had it. -/
  log : List (Worker × NormalizedOrderbook)
  /-- The end of the log that waits for the service. -/
  waiting : List (Worker × NormalizedOrderbook)
  /-- What the service has published. -/
  events : List AggregatedPriceChangeEvent
  /-- The ends of it that wait for the cache and for the gateway. -/
  toExecutor : List AggregatedPriceChangeEvent
  toGateway : List AggregatedPriceChangeEvent

/-- The messages of a connection in a log. -/
def messagesOf {Worker : Type} [DecidableEq Worker] (worker : Worker)
    (log : List (Worker × NormalizedOrderbook)) :
    List NormalizedOrderbook :=
  (log.filter fun e => e.1 = worker).map (·.2)

namespace Pipeline

variable {Worker : Type} [DecidableEq Worker]

/-- The queues hold the texts of the contents, and the parties are where
their own runs over what they took lead. `clean` says that no publication
fails. -/
structure Flows (clean : Prop) (actions : List (PipelineAction Worker))
    (s : Pipeline Worker) (c : Contents Worker) : Prop where
  outbox : ∀ w, s.outbox w
    = (c.pending w).map (publishNormalized J adapterConfig)
  normalized : s.normalized
    = c.waiting.map fun e => publishNormalized J adapterConfig e.2
  toExecutor : s.toExecutor = c.toExecutor.map (eventPublication J)
  toGateway : s.toGateway = c.toGateway.map (eventPublication J)
  kept : ∀ w, (messagesOf w c.log ++ c.pending w).Sublist
    (said J w actions)
  complete : clean → ∀ w, messagesOf w c.log ++ c.pending w
    = said J w actions
  service : (serviceStage D service Worker).Fed
    (fun input => clean → input.2.2 = true) .new c.log c.waiting s.store
    c.events
  executor : (cacheStage D).Fed (fun _ => True) (.new, false) c.events
    c.toExecutor (s.cache, s.blocked) []
  gateway : gatewayStage.Fed (fun _ => True) .new c.events c.toGateway
    s.registry []
  timelyPending : ∀ w, ∀ msg ∈ c.pending w, msg.Timely ∧ msg.Legal
  timelyWaiting : ∀ e ∈ c.waiting, e.2.Timely ∧ e.2.Legal
  timelyExecutor : ∀ e ∈ c.toExecutor, e.Timely
  timelyGateway : ∀ e ∈ c.toGateway, e.Timely

theorem said_concat (w : Worker) (actions : List (PipelineAction Worker))
    (action : PipelineAction Worker) :
    said J w (actions ++ [action])
      = said J w actions ++ said J w [action] := by
  unfold said
  rw [List.flatMap_append]

/-- Whatever a step is but a frame, it says nothing. -/
theorem said_concat_other {w : Worker}
    {actions : List (PipelineAction Worker)}
    {action : PipelineAction Worker} (h : said J w [action] = []) :
    said J w (actions ++ [action]) = said J w actions := by
  rw [said_concat, h, List.append_nil]

theorem flows_start (clean : Prop) :
    Flows D J service clean [] (start : Pipeline Worker)
      ⟨fun _ => [], [], [], [], [], []⟩ where
  outbox _ := rfl
  normalized := rfl
  toExecutor := rfl
  toGateway := rfl
  kept _ := List.Sublist.slnil
  complete _ _ := rfl
  service := .start ..
  executor := .start ..
  gateway := .start ..
  timelyPending _ _ h := nomatch h
  timelyWaiting _ h := nomatch h
  timelyExecutor _ h := nomatch h
  timelyGateway _ h := nomatch h

variable {D J service} {nats : Nats} {clean : Prop}
  {actions : List (PipelineAction Worker)} {s s' : Pipeline Worker}
  {c : Contents Worker}

theorem Flows.frame (h : Flows D J service clean actions s c) {w : Worker}
    {orders : Normalizer.GroupOrders} {normalizedAt : String}
    {receivedAt : Int} {msg : String}
    (hlegal : ∀ out ∈ normalizeFrame J orders normalizedAt receivedAt msg,
      out.Legal)
    (hstep : s.step D J nats service
      (.frame w orders normalizedAt receivedAt msg) = some s') :
    ∃ c', Flows D J service clean
      (actions ++ [.frame w orders normalizedAt receivedAt msg]) s' c' := by
  obtain ⟨hempty, hs'⟩ := Option.ite_none_right_eq_some.1 hstep
  obtain rfl := Option.some.inj hs'
  have hpending : c.pending w = [] := by
    have h' := h.outbox w
    rw [hempty] at h'
    exact List.map_eq_nil_iff.1 h'.symm
  let new := normalizeFrame J orders normalizedAt receivedAt msg
  have hsaid : ∀ w', said J w' (actions
      ++ [.frame w orders normalizedAt receivedAt msg])
        = said J w' actions ++ (if w = w' then new else []) := by
    intro w'
    rw [said_concat]
    simp [said, new]
  refine ⟨{ c with pending := Function.update c.pending w new }, ?_⟩
  refine
    { h with outbox := ?_, kept := ?_, complete := ?_, timelyPending := ?_ }
  · intro w'
    by_cases hw : w' = w
    · subst hw
      simp [new, Polymarket.PolymarketHandler.onMessage]
    · simp [hw, h.outbox w']
  · intro w'
    rw [hsaid]
    have hold := h.kept w'
    by_cases hw : w' = w
    · subst hw
      rw [hpending, List.append_nil] at hold
      simpa using hold.append (List.Sublist.refl new)
    · simpa [hw, Ne.symm hw] using hold
  · intro hclean w'
    rw [hsaid]
    have hold := h.complete hclean w'
    by_cases hw : w' = w
    · subst hw
      rw [hpending, List.append_nil] at hold
      simp [hold]
    · simpa [hw, Ne.symm hw] using hold
  · intro w' m hm
    by_cases hw : w' = w
    · subst hw
      simp only [Function.update_self] at hm
      exact ⟨Normalizer.range_of_mem_normalize hm, hlegal m hm⟩
    · simp only [Function.update_of_ne hw] at hm
      exact h.timelyPending w' m hm

theorem Flows.publish (hnats : nats.Lawful)
    (h : Flows D J service clean actions s c) {w : Worker}
    (hstep : s.step D J nats service (.publish w) = some s') :
    ∃ c', Flows D J service clean (actions ++ [.publish w]) s' c' := by
  unfold step at hstep
  simp only at hstep
  split at hstep
  · next pub rest hout =>
      obtain rfl := Option.some.inj hstep
      have hpending := h.outbox w
      rw [hout] at hpending
      obtain ⟨msg, msgs, hmsgs, rfl, rfl⟩ :=
        List.map_eq_cons_iff.1 hpending.symm
      have hflow : ∀ w', messagesOf w' (c.log ++ [(w, msg)])
          ++ Function.update c.pending w msgs w'
            = messagesOf w' c.log ++ c.pending w' := by
        intro w'
        by_cases hw : w' = w
        · subst hw
          simp [messagesOf, hmsgs]
        · simp [messagesOf, hw, Ne.symm hw]
      have hsaid : ∀ w', said J w' (actions ++ [.publish w])
          = said J w' actions :=
        fun w' => said_concat_other J rfl
      refine ⟨{ c with
        pending := Function.update c.pending w msgs
        log := c.log ++ [(w, msg)]
        waiting := c.waiting ++ [(w, msg)] }, ?_⟩
      refine
        { h with
          outbox := ?_, normalized := ?_, kept := ?_, complete := ?_
          service := h.service.produce _
          timelyPending := ?_, timelyWaiting := ?_ }
      · intro w'
        by_cases hw : w' = w
        · subst hw
          simp
        · simp [hw, h.outbox w']
      · have hmsg := (h.timelyPending w msg (by rw [hmsgs]; simp)).2
        show deliver _ _ _ _ = _
        rw [deliver, if_pos (delivers_publishNormalized J hnats hmsg),
          h.normalized, List.map_append, List.map_singleton]
      · intro w'
        rw [hflow, hsaid]
        exact h.kept w'
      · intro hclean w'
        rw [hflow, hsaid]
        exact h.complete hclean w'
      · intro w' m hm
        by_cases hw : w' = w
        · subst hw
          simp only [Function.update_self] at hm
          refine h.timelyPending w' m ?_
          rw [hmsgs]
          exact List.mem_cons_of_mem msg hm
        · simp only [Function.update_of_ne hw] at hm
          exact h.timelyPending w' m hm
      · intro e he
        rcases List.mem_append.1 he with he | he
        · exact h.timelyWaiting e he
        · obtain rfl := List.mem_singleton.1 he
          refine h.timelyPending w msg ?_
          rw [hmsgs]
          exact List.mem_cons_self
  · cases hstep

theorem Flows.publishFails (h : Flows D J service clean actions s c)
    {w : Worker} (hclean : ¬ clean)
    (hstep : s.step D J nats service (.publishFails w) = some s') :
    ∃ c', Flows D J service clean (actions ++ [.publishFails w]) s' c' := by
  unfold step at hstep
  simp only at hstep
  split at hstep
  · next pub rest hout =>
      obtain rfl := Option.some.inj hstep
      refine ⟨{ c with pending := Function.update c.pending w [] }, ?_⟩
      refine
        { h with
          outbox := ?_, kept := ?_, complete := fun h' => absurd h' hclean
          timelyPending := ?_ }
      · intro w'
        by_cases hw : w' = w
        · subst hw
          simp
        · simp [hw, h.outbox w']
      · intro w'
        rw [said_concat_other J rfl]
        by_cases hw : w' = w
        · subst hw
          simp only [Function.update_self, List.append_nil]
          exact (List.sublist_append_left ..).trans (h.kept w')
        · simp only [Function.update_of_ne hw]
          exact h.kept w'
      · intro w' m hm
        by_cases hw : w' = w
        · subst hw
          simp only [Function.update_self] at hm
          cases hm
        · simp only [Function.update_of_ne hw] at hm
          exact h.timelyPending w' m hm
  · cases hstep

theorem Flows.process (hJ : J.Lawful) (hnats : nats.Lawful)
    (h : Flows D J service clean actions s c) {now : Int} {sent : Bool}
    (htime : -2 ^ 63 ≤ now ∧ now < 2 ^ 63) (hsent : clean → sent = true)
    (hstep : s.step D J nats service (.process now sent) = some s') :
    ∃ c', Flows D J service clean (actions ++ [.process now sent]) s'
      c' := by
  unfold step at hstep
  simp only at hstep
  split at hstep
  · next pub rest hqueue =>
      obtain rfl := Option.some.inj hstep
      have hwaiting := h.normalized
      rw [hqueue] at hwaiting
      obtain ⟨e, es, hes, rfl, rfl⟩ := List.map_eq_cons_iff.1 hwaiting.symm
      have hservice := h.service
      have htimely := h.timelyWaiting
      rw [hes] at hservice htimely
      obtain ⟨he, hes'⟩ := List.forall_mem_cons.1 htimely
      have hread : service.processPayload D J s.store
          (publishNormalized J adapterConfig e.2).payload now = _ :=
        processPayload_toString D service hJ he.1 s.store now
      let new := answer D service s.store (e, now, sent)
      -- what is published is the texts of the answer
      have hpublished : (if sent then (service.processPayload D J s.store
            (publishNormalized J adapterConfig e.2).payload
              now).2.toList else [])
          = new.map (eventPublication J) := by
        rw [hread]
        simp only [new, answer]
        cases (service.processMessage D s.store e.2 now).2 <;>
          cases sent <;> rfl
      have hnew : ∀ event ∈ new, event.Timely :=
        fun _ => timely_answer D service htime
      have hlegal : ∀ event ∈ new, event.Legal :=
        fun _ => legal_answer D service he.2
      refine ⟨{ c with
        waiting := es
        events := c.events ++ new
        toExecutor := c.toExecutor ++ new
        toGateway := c.toGateway ++ new }, ?_⟩
      refine
        { h with
          normalized := rfl, toExecutor := ?_, toGateway := ?_
          kept := ?_, complete := ?_, service := ?_
          executor := h.executor.produce new
          gateway := h.gateway.produce new
          timelyWaiting := hes'
          timelyExecutor := ?_, timelyGateway := ?_ }
      · simp only [hpublished]
        rw [foldl_deliver, h.toExecutor, List.map_append]
        exact List.forall_mem_map.2 fun event hevent =>
          (delivers_eventPublication J hnats (hlegal event hevent)).1
      · simp only [hpublished]
        rw [foldl_deliver, h.toGateway, List.map_append]
        exact List.forall_mem_map.2 fun event hevent =>
          (delivers_eventPublication J hnats (hlegal event hevent)).2
      · intro w
        rw [said_concat_other J rfl]
        exact h.kept w
      · intro hclean w
        rw [said_concat_other J rfl]
        exact h.complete hclean w
      · refine hservice.consume (i := (e, now, sent)) rfl hsent ?_
        simp only [hread]
        rfl
      · rw [List.forall_mem_append]
        exact ⟨h.timelyExecutor, hnew⟩
      · rw [List.forall_mem_append]
        exact ⟨h.timelyGateway, hnew⟩
  · cases hstep

theorem Flows.cache (hJ : J.Lawful)
    (h : Flows D J service clean actions s c)
    (hstep : s.step D J nats service .cache = some s') :
    ∃ c', Flows D J service clean (actions ++ [.cache]) s' c' := by
  unfold step at hstep
  simp only at hstep
  split at hstep
  · next pub rest hqueue =>
      obtain ⟨hfree, hs'⟩ := Option.ite_none_left_eq_some.1 hstep
      obtain rfl := Option.some.inj hs'
      have hwaiting := h.toExecutor
      rw [hqueue] at hwaiting
      obtain ⟨e, es, hes, rfl, rfl⟩ := List.map_eq_cons_iff.1 hwaiting.symm
      have hexecutor := h.executor
      have htimely := h.timelyExecutor
      rw [hes] at hexecutor htimely
      obtain ⟨he, hes'⟩ := List.forall_mem_cons.1 htimely
      have hread : s.cache.handlePayload D J (eventPublication J e).payload
          = s.cache.handleChange D (.ofEvent e) :=
        BboCache.handlePayload_toString hJ he s.cache
      refine ⟨{ c with toExecutor := es }, ?_⟩
      refine
        { h with
          toExecutor := rfl, kept := ?_, complete := ?_, executor := ?_
          timelyExecutor := hes' }
      · intro w
        rw [said_concat_other J rfl]
        exact h.kept w
      · intro hclean w
        rw [said_concat_other J rfl]
        exact h.complete hclean w
      · refine hexecutor.consume (i := e) rfl trivial ?_
        show (if s.blocked = true then none else _) = _
        rw [if_neg hfree]
        simp only [hread]
  · cases hstep

theorem Flows.route (hJ : J.Lawful)
    (h : Flows D J service clean actions s c)
    (hstep : s.step D J nats service .route = some s') :
    ∃ c', Flows D J service clean (actions ++ [.route]) s' c' := by
  unfold step at hstep
  simp only at hstep
  split at hstep
  · next pub rest hqueue =>
      obtain rfl := Option.some.inj hstep
      have hwaiting := h.toGateway
      rw [hqueue] at hwaiting
      obtain ⟨e, es, hes, rfl, rfl⟩ := List.map_eq_cons_iff.1 hwaiting.symm
      have hgateway := h.gateway
      have htimely := h.timelyGateway
      rw [hes] at hgateway htimely
      obtain ⟨he, hes'⟩ := List.forall_mem_cons.1 htimely
      have hread : (Gateway.handlePayload J s.registry
          (eventPublication J e).payload).getD s.registry
          = Gateway.handleChange s.registry e := by
        show (Gateway.handlePayload J _ (e.toString J)).getD _ = _
        rw [Gateway.handlePayload_toString hJ he]
        rfl
      refine ⟨{ c with toGateway := es }, ?_⟩
      refine
        { h with
          toGateway := rfl, kept := ?_, complete := ?_, gateway := ?_
          timelyGateway := hes' }
      · intro w
        rw [said_concat_other J rfl]
        exact h.kept w
      · intro hclean w
        rw [said_concat_other J rfl]
        exact h.complete hclean w
      · refine hgateway.consume (i := .route e) rfl trivial ?_
        simp only [hread]
        rfl
  · cases hstep

theorem Flows.socket (h : Flows D J service clean actions s c)
    {action : SocketAction}
    (hstep : s.step D J nats service (.socket action) = some s') :
    ∃ c', Flows D J service clean (actions ++ [.socket action]) s' c' := by
  obtain ⟨hother, hmove⟩ := Option.ite_none_left_eq_some.1 hstep
  obtain ⟨registry, hregistry, rfl⟩ := Option.map_eq_some_iff.1 hmove
  refine ⟨c, ?_⟩
  refine { h with kept := ?_, complete := ?_, gateway := ?_ }
  · intro w
    rw [said_concat_other J rfl]
    exact h.kept w
  · intro hclean w
    rw [said_concat_other J rfl]
    exact h.complete hclean w
  · refine h.gateway.other (i := action)
      (Option.not_isSome_iff_eq_none.1 hother) trivial ?_
    show (s.registry.socketStep action).map _ = _
    rw [hregistry]
    rfl

end Pipeline

end Wup
