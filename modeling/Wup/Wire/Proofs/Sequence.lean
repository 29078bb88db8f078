/-
What the runs of the asynchronous system lead to.

By the invariant each party is where its own run over what it took leads
(`exists_flows`), so a run is read off those: there is a log of what NATS
had from the connections, and everything behind it is a function of the
log. At any moment, with whatever publications failing, each party is
somewhere along it (`nothing_invented`); with nothing on its way the
system is at its end (`pipeline_sequential`), which is where the
synchronous run leads that results about the executor's cache follow.
-/
import Wup.Executor.Proofs.Consumption
import Wup.Wire.Proofs.Pipeline

namespace Wup

open Executor (BboCache)
open Gateway (ClientRegistry SocketAction)

namespace Pipeline

variable {Worker : Type} [DecidableEq Worker] {D : RustDecimal}
  {J : SerdeJson} {nats : Nats} {service : OrderbookService} {clean : Prop}
  {actions : List (PipelineAction Worker)} {s : Pipeline Worker}

theorem exists_flows (hJ : J.Lawful) (hnats : nats.Lawful)
    (hrun : run D J nats service actions = some s)
    (htime : ∀ action ∈ actions, InTime action)
    (hlegal : ∀ action ∈ actions, Legal J action)
    (hsends : clean → ∀ action ∈ actions, Sends action) :
    ∃ c, Flows D J service clean actions s c := by
  induction actions using List.reverseRecOn generalizing s with
  | nil =>
      obtain rfl := Option.some.inj hrun
      exact ⟨_, flows_start D J service clean⟩
  | append_singleton actions action ih =>
      unfold run at hrun ih
      rw [List.foldlM_append] at hrun
      obtain ⟨s₁, hs₁, hlast⟩ := Option.bind_eq_some_iff.1 hrun
      obtain ⟨s₂, hstep, hs₂⟩ := Option.bind_eq_some_iff.1 hlast
      obtain rfl := Option.some.inj hs₂
      obtain ⟨hbefore, hnow⟩ := List.forall_mem_append.1 htime
      have hnow := List.forall_mem_singleton.1 hnow
      have hsend : clean → Sends action := fun hclean =>
        hsends hclean action (List.mem_append_right _ List.mem_cons_self)
      obtain ⟨hlegal', hids⟩ := List.forall_mem_append.1 hlegal
      have hids := List.forall_mem_singleton.1 hids
      obtain ⟨c, h⟩ := ih hs₁ hbefore hlegal' fun hclean a ha =>
        hsends hclean a (List.mem_append_left _ ha)
      cases action with
      | frame w orders normalizedAt receivedAt msg =>
          exact h.frame hids hstep
      | publish w => exact h.publish hnats hstep
      | publishFails w => exact h.publishFails hsend hstep
      | process now sent => exact h.process hJ hnats hnow hsend hstep
      | cache => exact h.cache hJ hstep
      | route => exact h.route hJ hstep
      | socket action => exact h.socket hstep

end Pipeline

-- ======================================================== read in sequence

section Sequence

variable (D : RustDecimal) (service : OrderbookService) {Worker : Type}

/-- What the service publishes for a sequence of messages. -/
def publishedEvents (store : OrderbookStore) :
    List (NormalizedOrderbook × Int) → List AggregatedPriceChangeEvent
  | [] => []
  | msg :: msgs =>
      let r := service.processMessage D store msg.1 msg.2
      (r.2.map (·.2)).toList ++ publishedEvents r.1 msgs

variable {D service}

theorem run_serviceStage {inputs : List (ServiceInput Worker)}
    (hsent : ∀ input ∈ inputs, input.2.2 = true)
    {store store' : OrderbookStore}
    {events : List AggregatedPriceChangeEvent}
    (h : (serviceStage D service Worker).run store inputs
      = some (store', events)) :
    store' = (inputs.map fun e => (e.1.2, e.2.1)).foldl
        (fun store msg => (service.processMessage D store msg.1 msg.2).1)
        store
      ∧ events = publishedEvents D service store
          (inputs.map fun e => (e.1.2, e.2.1)) := by
  induction inputs generalizing store events with
  | nil =>
      obtain ⟨rfl, rfl⟩ := Prod.mk.inj (Option.some.inj h)
      exact ⟨rfl, rfl⟩
  | cons input inputs ih =>
      obtain ⟨hinput, hinputs⟩ := List.forall_mem_cons.1 hsent
      obtain ⟨r, hr, hrest⟩ := Option.bind_eq_some_iff.1 h
      obtain ⟨r', hr', hpair⟩ := Option.map_eq_some_iff.1 hrest
      obtain rfl := Option.some.inj hr
      obtain ⟨rfl, rfl⟩ := Prod.mk.inj hpair
      obtain ⟨hstore, hevents⟩ := ih hinputs hr'
      refine ⟨hstore, ?_⟩
      rw [hevents]
      simp [publishedEvents, answer, hinput]

/-- What the cache holds after a sequence of events. -/
theorem run_cacheStage {events : List AggregatedPriceChangeEvent}
    {s s' : BboCache × Bool} {out : List Empty}
    (h : (cacheStage D).run s events = some (s', out)) :
    s'.1 = events.foldl
      (fun cache event => (cache.handleChange D (.ofEvent event)).1)
      s.1 := by
  induction events generalizing s out with
  | nil =>
      obtain ⟨rfl, rfl⟩ := Prod.mk.inj (Option.some.inj h)
      rfl
  | cons event events ih =>
      obtain ⟨r, hr, hrest⟩ := Option.bind_eq_some_iff.1 h
      obtain ⟨r', hr', hpair⟩ := Option.map_eq_some_iff.1 hrest
      obtain ⟨-, hmoved⟩ := Option.ite_none_left_eq_some.1 hr
      obtain rfl := Option.some.inj hmoved
      obtain ⟨rfl, rfl⟩ := Prod.mk.inj hpair
      exact ih hr'

/-- Following the service one message at a time is handing its events
over afterwards. -/
theorem foldl_follow (msgs : List (NormalizedOrderbook × Int))
    (store : OrderbookStore) (cache : BboCache) :
    (msgs.foldl (Executor.follow D service) (store, cache)).2
      = (publishedEvents D service store msgs).foldl
          (fun cache event => (cache.handleChange D (.ofEvent event)).1)
          cache := by
  induction msgs generalizing store cache with
  | nil => rfl
  | cons msg msgs ih =>
      have hstep : Executor.follow D service (store, cache) msg
          = ((service.processMessage D store msg.1 msg.2).1,
              ((service.processMessage D store msg.1 msg.2).2.map
                (·.2)).toList.foldl (fun cache event =>
                  (cache.handleChange D (.ofEvent event)).1) cache) := by
        unfold Executor.follow
        cases h : (service.processMessage D store msg.1 msg.2).2 with
        | none => simp [h]
        | some e => simp [h]
      rw [List.foldl_cons, publishedEvents, List.foldl_append, ← ih, hstep]

theorem run_gatewayStage {moves : List SocketAction}
    {registry registry' : ClientRegistry} {out : List Empty}
    (h : gatewayStage.run registry moves = some (registry', out)) :
    moves.foldlM ClientRegistry.socketStep registry = some registry' := by
  induction moves generalizing registry out with
  | nil =>
      obtain ⟨rfl, rfl⟩ := Prod.mk.inj (Option.some.inj h)
      rfl
  | cons move moves ih =>
      obtain ⟨r, hr, hrest⟩ := Option.bind_eq_some_iff.1 h
      obtain ⟨r', hr', hpair⟩ := Option.map_eq_some_iff.1 hrest
      obtain ⟨registry₁, hmove, rfl⟩ := Option.map_eq_some_iff.1 hr
      obtain ⟨rfl, -⟩ := Prod.mk.inj hpair
      rw [List.foldlM_cons, hmove]
      exact ih hr'

end Sequence

namespace Pipeline

variable {Worker : Type} [DecidableEq Worker] {D : RustDecimal}
  {J : SerdeJson} {nats : Nats} {service : OrderbookService}
  {actions : List (PipelineAction Worker)} {s : Pipeline Worker}

/-- At any moment of any run, whatever publications fail: nothing is
invented, repeated or reordered. The service has processed some of what
the connections' frames say, in their order; the cache and the gateway
have each handled a first part of what it published. -/
theorem nothing_invented (hJ : J.Lawful) (hnats : nats.Lawful)
    (hrun : run D J nats service actions = some s)
    (htime : ∀ action ∈ actions, InTime action)
    (hlegal : ∀ action ∈ actions, Legal J action) :
    ∃ (log : List (ServiceInput Worker))
      (events seen : List AggregatedPriceChangeEvent)
      (moves : List SocketAction),
      (∀ w, (messagesOf w (log.map (·.1))).Sublist (said J w actions))
      ∧ (serviceStage D service Worker).run .new log
          = some (s.store, events)
      ∧ (cacheStage D).run (.new, false) seen
          = some ((s.cache, s.blocked), [])
      ∧ seen <+: events
      ∧ moves.foldlM ClientRegistry.socketStep .new = some s.registry
      ∧ moves.filterMap routed <+: events := by
  obtain ⟨c, h⟩ : ∃ c, Flows D J service False actions s c :=
    exists_flows hJ hnats hrun htime hlegal nofun
  obtain ⟨log, -, hlog, htaken⟩ := h.service
  obtain ⟨seen, -, hseen, hevents⟩ := h.executor
  obtain ⟨moves, -, hmoves, hrouted⟩ := h.gateway
  refine ⟨log, c.events, seen, moves, fun w => ?_, hlog, hseen, ?_,
    run_gatewayStage hmoves, ?_⟩
  · refine List.Sublist.trans ?_ (h.kept w)
    have hfirst : c.log = log.map (·.1) ++ c.waiting := by
      rw [htaken]
      simp [Stage.taken, serviceStage]
    rw [hfirst]
    simp only [messagesOf, List.filter_append, List.map_append,
      List.append_assoc]
    exact List.sublist_append_left ..
  · rw [hevents]
    simp [Stage.taken, cacheStage]
  · rw [hrouted]
    exact List.prefix_append ..

/-- A frame with one empty book, through all parties. -/
def oneFrame : List (PipelineAction Unit) :=
  [.frame () (fun _ => .stored) "" 5
      ("[\x7b\"event_type\":\"book\",\"asset_id\":\"t\","
        ++ "\"market\":\"m\",\"bids\":[],\"asks\":[],"
        ++ "\"timestamp\":\"1\"\x7d]"),
    .publish (), .process 7 true, .cache, .route]

theorem oneFrame_runs :
    ∃ s, run fixedPoint compactJson simpleNats ⟨none, true⟩ oneFrame = some s
      ∧ s.outbox () = [] ∧ s.normalized = [] ∧ s.toExecutor = []
      ∧ s.toGateway = [] := by
  have h : (run fixedPoint compactJson simpleNats ⟨none, true⟩ oneFrame).any
      (fun s => decide (s.outbox () = [] ∧ s.normalized = []
        ∧ s.toExecutor = [] ∧ s.toGateway = [])) = true := by
    decide +kernel
  obtain ⟨s, hs, hquiet⟩ := (Option.any_eq_true _ _).1 h
  exact ⟨s, hs, of_decide_eq_true hquiet⟩

theorem inTime_oneFrame : ∀ action ∈ oneFrame, InTime action := by
  simp [oneFrame, InTime]

theorem legal_oneFrame :
    ∀ action ∈ oneFrame, Legal compactJson action := by
  decide +kernel

theorem nothing_invented_one_frame :
    ∃ (s : Pipeline Unit) (log : List (ServiceInput Unit))
      (events : List AggregatedPriceChangeEvent),
      run fixedPoint compactJson simpleNats ⟨none, true⟩ oneFrame = some s
      ∧ (messagesOf () (log.map (·.1))).Sublist
          (said compactJson () oneFrame)
      ∧ (serviceStage fixedPoint ⟨none, true⟩ Unit).run .new log
          = some (s.store, events) := by
  obtain ⟨s, hs, -⟩ := oneFrame_runs
  obtain ⟨log, events, -, -, hsaid, hlog, -⟩ :=
    nothing_invented compactJson_lawful simpleNats_lawful hs
      inTime_oneFrame legal_oneFrame
  exact ⟨s, log, events, hs, hsaid (), hlog⟩

/-- When every publication succeeds and nothing is on its way, the
system is where one sequence of messages leads: for each connection the
sequence has exactly what its frames say, in order. -/
theorem pipeline_sequential (hJ : J.Lawful) (hnats : nats.Lawful)
    (hrun : run D J nats service actions = some s)
    (htime : ∀ action ∈ actions, InTime action)
    (hlegal : ∀ action ∈ actions, Legal J action)
    (hsends : ∀ action ∈ actions, Sends action)
    (hout : ∀ w, s.outbox w = []) (hnormalized : s.normalized = []) :
    ∃ log : List ((Worker × NormalizedOrderbook) × Int),
      let msgs := log.map fun e => (e.1.2, e.2)
      (∀ w, messagesOf w (log.map (·.1)) = said J w actions)
      ∧ s.store = Executor.serviceRun D service msgs
      ∧ (s.toExecutor = [] →
          s.cache = (Executor.followRun D service msgs).2)
      ∧ (s.toGateway = [] → ∃ moves : List SocketAction,
          moves.foldlM ClientRegistry.socketStep .new = some s.registry
          ∧ moves.filterMap routed
              = publishedEvents D service .new msgs) := by
  obtain ⟨c, h⟩ : ∃ c, Flows D J service True actions s c :=
    exists_flows hJ hnats hrun htime hlegal fun _ => hsends
  have hpending : ∀ w, c.pending w = [] := by
    intro w
    have hw := h.outbox w
    rw [hout w] at hw
    exact List.map_eq_nil_iff.1 hw.symm
  have hwaiting : c.waiting = [] := by
    have hw := h.normalized
    rw [hnormalized] at hw
    exact List.map_eq_nil_iff.1 hw.symm
  have hservice := h.service
  rw [hwaiting] at hservice
  obtain ⟨log, hsent, hlog, htaken⟩ := hservice.drained
  obtain ⟨hstore, hevents⟩ :=
    run_serviceStage (fun input hi => hsent input hi trivial) hlog
  have hfirst : c.log = log.map (·.1) := by
    rw [← htaken]
    simp [Stage.taken, serviceStage]
  refine ⟨log.map fun e => (e.1, e.2.1), fun w => ?_, ?_, fun hdone => ?_,
    fun hdone => ?_⟩
  · have hw := h.complete trivial w
    rw [hpending w, List.append_nil, hfirst] at hw
    rw [← hw, List.map_map]
    rfl
  · rw [hstore, List.map_map]
    rfl
  · have hwait : c.toExecutor = [] := by
      have hw := h.toExecutor
      rw [hdone] at hw
      exact List.map_eq_nil_iff.1 hw.symm
    have hexecutor := h.executor
    rw [hwait] at hexecutor
    obtain ⟨seen, -, hseen, htaken'⟩ := hexecutor.drained
    have hall : seen = c.events := by
      rw [← htaken']
      simp [Stage.taken, cacheStage]
    have hcache := run_cacheStage hseen
    rw [hall, hevents] at hcache
    unfold Executor.followRun
    rw [List.map_map, foldl_follow]
    exact hcache
  · have hwait : c.toGateway = [] := by
      have hw := h.toGateway
      rw [hdone] at hw
      exact List.map_eq_nil_iff.1 hw.symm
    have hgateway := h.gateway
    rw [hwait] at hgateway
    obtain ⟨moves, -, hmoves, htaken'⟩ := hgateway.drained
    refine ⟨moves, run_gatewayStage hmoves, ?_⟩
    rw [List.map_map]
    exact htaken'.trans hevents

theorem pipeline_sequential_one_frame :
    ∃ (s : Pipeline Unit)
      (log : List ((Unit × NormalizedOrderbook) × Int)),
      run fixedPoint compactJson simpleNats ⟨none, true⟩ oneFrame = some s
      ∧ messagesOf () (log.map (·.1)) = said compactJson () oneFrame
      ∧ s.cache = (Executor.followRun fixedPoint ⟨none, true⟩
          (log.map fun e => (e.1.2, e.2))).2 := by
  obtain ⟨s, hs, hout, hnormalized, hexecutor, -⟩ := oneFrame_runs
  obtain ⟨log, hsaid, -, hcache, -⟩ :=
    pipeline_sequential compactJson_lawful simpleNats_lawful hs
      inTime_oneFrame legal_oneFrame (by simp [oneFrame, Sends])
      (fun _ => hout) hnormalized
  exact ⟨s, log, hs, hsaid (), hcache hexecutor⟩

end Pipeline

end Wup
