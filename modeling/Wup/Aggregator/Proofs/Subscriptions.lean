/-
No subscription is lost across reconnects.

There are three copies of what a worker is subscribed to: the
supervisor's record, the handler's list, and what was asked for on the
connection. The handler is `Told` if its list has been asked for, a text
that is being written included; every step of the worker keeps that, as a
new connection asks for the whole list. The record and the list agree up
to the commands the handler has not seen, and up to a command the
supervisor has sent and not recorded (`Recorded`); a step of the worker
moves a command from the queue to the handler, and a step of the
supervisor puts one into both the queue and the record.
-/
import Wup.Aggregator.Proofs.Steps

namespace Wup.Aggregator

open Polymarket Runs

variable {J : SerdeJson}

-- ====================================================== what was asked for

theorem Requested.mono {requests requests' : List Request} {id : String}
    (h : Requested J requests id) (hsub : requests ⊆ requests') :
    Requested J requests' id := by
  obtain ⟨request, hmem, hrequest⟩ := h
  exact ⟨request, hsub hmem, hrequest⟩

theorem requested_last {requests : List Request} {ids : List String}
    {id : String} (h : id ∈ ids) :
    Requested J (requests ++ [⟨buildSubscriptionMessage J ids, ids⟩]) id :=
  ⟨_, List.mem_append_right _ (.head _), rfl, h⟩

namespace WsManager

variable {w w' : WsManager} {hungUp : Bool}

/-- What the connection has been told, or is being told. -/
def told (w : WsManager) : List Request :=
  match w.phase with
  | .writing request => w.sent ++ [request]
  | _ => w.sent

/-- While there is a connection, it is told the handler's list. -/
def Told (J : SerdeJson) (w : WsManager) : Prop :=
  w.phase ≠ .offline → w.phase ≠ .stopped →
    ∀ id ∈ w.handler.subscribedIds, Requested J w.told id

theorem told_new (handler : PolymarketHandler) : Told J (.new handler) :=
  fun h => absurd rfl h

/-- In a phase with a connection it has been told the list. -/
theorem Told.during {phase : Phase} (h : Told J w)
    (hphase : w.phase = phase) (hoff : phase ≠ .offline)
    (hstop : phase ≠ .stopped) :
    ∀ id ∈ w.handler.subscribedIds, Requested J w.told id := by
  subst hphase
  exact h hoff hstop

/-- A step of the worker. -/
theorem Told.step {action : WorkerAction} (h : Told J w)
    (hstep : w.step J hungUp action = some w') : Told J w' := by
  cases stepped_of_step hstep with
  | connectSilent _ hsilent =>
      intro _ _ id hid
      have hnone : w.handler.subscribedIds = [] := by
        by_contra hsome
        rw [PolymarketHandler.onConnectMessage, if_neg hsome] at hsilent
        cases hsilent
      rw [hnone] at hid
      cases hid
  | connectAsks _ hasks =>
      rw [PolymarketHandler.onConnectMessage] at hasks
      obtain ⟨-, htext⟩ := Option.ite_none_left_eq_some.1 hasks
      obtain rfl := Option.some.inj htext
      exact fun _ _ id hid => requested_last hid
  | connectFails _ => exact h
  | written hphase =>
      intro _ _ id hid
      have hold := h.during hphase (by simp) (by simp) id hid
      rwa [told, hphase] at hold
  | writeFails _ => exact fun hoff => absurd rfl hoff
  | takeShutdown _ _ => exact fun _ hstop => absurd rfl hstop
  | take hphase _ _ =>
      intro _ _ id hid
      have hold := h.during hphase (by simp) (by simp) id hid
      rwa [told, hphase] at hold
  | @handleAsks cmd handler text hphase hhandle =>
      intro _ _ id hid
      have hold := h.during hphase (by simp) (by simp)
      rw [told, hphase] at hold
      cases cmd with
      | subscribe ids =>
          cases hhandle
          rcases PolymarketHandler.mem_addSubscriptions.1 hid with hid | hid
          · exact (hold id hid).mono (List.subset_append_left ..)
          · exact requested_last hid
      | unsubscribe ids =>
          cases hhandle
          have hid := (PolymarketHandler.mem_removeSubscriptions.1 hid).1
          exact (hold id hid).mono (List.subset_append_left ..)
      | shutdown => cases hhandle
  | @handleSilent cmd handler hphase hhandle =>
      intro _ _ id hid
      have hold := h.during hphase (by simp) (by simp)
      rw [told, hphase] at hold
      cases cmd with
      | subscribe ids => cases hhandle
      | unsubscribe ids => cases hhandle
      | shutdown =>
          cases hhandle
          exact hold id hid
  | drop _ => exact fun hoff => absurd rfl hoff
  | closed _ _ _ => exact fun _ hstop => absurd rfl hstop

/-- Handler and commands are as before, and the task has not stopped. -/
theorem settled_of_same (hhandler : w'.handler = w.handler)
    (hunhandled : w'.unhandled = w.unhandled)
    (hrunning : w'.phase ≠ .stopped) :
    w'.settled J = w.settled J ∧ w'.unhandled ⊆ w.unhandled
      ∧ (w'.phase = .stopped → w.phase = .stopped) := by
  refine ⟨?_, ?_, fun h => absurd h hrunning⟩
  · rw [settled, settled, hhandler, hunhandled]
  · rw [hunhandled]
    exact List.Subset.refl _

/-- A command that is handled leaves the queue, and its effect stays. -/
theorem settled_of_handled {cmd : ControlCommand}
    {handler : PolymarketHandler} {text : Option String} {phase : Phase}
    (hphase : w.phase = .handling cmd)
    (hhandle : w.handler.handleCommand J cmd = (handler, text))
    (hafter : { w with handler := handler, phase := phase }.unhandled
      = w.commandRx) (hrunning : phase ≠ .stopped) :
    { w with handler := handler, phase := phase }.settled J = w.settled J
      ∧ { w with handler := handler, phase := phase }.unhandled
        ⊆ w.unhandled
      ∧ (phase = .stopped → w.phase = .stopped) := by
  have hbefore : w.unhandled = cmd :: w.commandRx := by
    rw [unhandled, hphase]
  refine ⟨?_, ?_, fun h => absurd h hrunning⟩
  · rw [settled, settled, hafter, hbefore,
      PolymarketHandler.handleCommands, hhandle]
  · rw [hafter, hbefore]
    exact List.subset_cons_self ..

/-- The handler will end up the same: a step of the worker takes no
command away. -/
theorem settled_step {action : WorkerAction}
    (hlive : .shutdown ∉ w.unhandled)
    (hstep : w.step J false action = some w') :
    w'.settled J = w.settled J ∧ w'.unhandled ⊆ w.unhandled
      ∧ (w'.phase = .stopped → w.phase = .stopped) := by
  cases stepped_of_step hstep with
  | connectSilent hphase _ =>
      exact settled_of_same rfl (by simp only [unhandled, hphase]) (by simp)
  | connectAsks hphase _ =>
      exact settled_of_same rfl (by simp only [unhandled, hphase]) (by simp)
  | connectFails _ => exact ⟨rfl, List.Subset.refl _, id⟩
  | written hphase =>
      exact settled_of_same rfl (by simp only [unhandled, hphase]) (by simp)
  | writeFails hphase =>
      exact settled_of_same rfl (by simp only [unhandled, hphase]) (by simp)
  | takeShutdown hphase hqueue =>
      refine absurd ?_ hlive
      rw [unhandled, hphase, hqueue]
      exact .head _
  | take hphase hqueue _ =>
      exact settled_of_same rfl (by simp only [unhandled, hphase, hqueue])
        (by simp)
  | handleAsks hphase hhandle =>
      exact settled_of_handled hphase hhandle rfl (by simp)
  | handleSilent hphase hhandle =>
      exact settled_of_handled hphase hhandle rfl (by simp)
  | drop hphase =>
      exact settled_of_same rfl (by simp only [unhandled, hphase]) (by simp)
  | closed _ _ hhungUp => cases hhungUp

/-- A command that is sent comes last, and leaves the rest alone. -/
theorem send_eq_sent {cmd : ControlCommand} (h : w.send cmd = .sent w') :
    w'.unhandled = w.unhandled ++ [cmd]
      ∧ w'.settled J = ((w.settled J).handleCommand J cmd).1
      ∧ (w.Told J → w'.Told J) := by
  unfold send at h
  split_ifs at h
  cases h
  have hunhandled :
      ({ w with commandRx := w.commandRx ++ [cmd] } : WsManager).unhandled
        = w.unhandled ++ [cmd] := by
    unfold unhandled
    cases w.phase <;> rfl
  refine ⟨hunhandled, ?_, fun h => h⟩
  rw [settled, hunhandled, PolymarketHandler.handleCommands_append]
  rfl

end WsManager

-- ========================================================== the supervisor

/-- What the record of a worker will be once the supervisor has recorded
what it has sent. -/
def Call.record (worker : String) (ids : List String) :
    Option Call → List String
  | some (.filled worker' toAdd _ _) =>
      if worker' = worker then ids ++ toAdd else ids
  | some (.removed worker' toRemove _ _) =>
      if worker' = worker then ids.filter (· ∉ toRemove) else ids
  | _ => ids

/-- The supervisor is shutting down. -/
def Call.Ending : Option Call → Prop
  | some (.stopping _) => True
  | some .joining => True
  | _ => False

namespace WorkerHandle

/-- The record and the handler's list agree, up to what is under way. -/
def Recorded (J : SerdeJson) (call : Option Call) (worker : String)
    (handle : WorkerHandle) : Prop :=
  ¬ Call.Ending call →
    .shutdown ∉ handle.task.unhandled ∧ handle.task.phase ≠ .stopped
      ∧ ∀ id, id ∈ (handle.task.settled J).subscribedIds
        ↔ id ∈ Call.record worker handle.subscribedIds call

variable {call call' : Option Call} {worker : String}
  {handle : WorkerHandle}

/-- A step of the call that concerns other workers. -/
theorem Recorded.of_call (h : handle.Recorded J call worker)
    (hending : Call.Ending call → Call.Ending call')
    (hrecord : Call.record worker handle.subscribedIds call'
      = Call.record worker handle.subscribedIds call) :
    handle.Recorded J call' worker := by
  intro hcall'
  rw [hrecord]
  exact h fun hcall => hcall' (hending hcall)

end WorkerHandle

namespace Supervisor

variable {s s' : Supervisor}

/-- The invariant. -/
def Good (J : SerdeJson) (s : Supervisor) : Prop :=
  ∀ worker handle, s.workers.lookup worker = some handle →
    handle.task.Told J ∧ handle.Recorded J s.call worker

/-- One worker is replaced, and the call goes on. -/
theorem Good.set {call : Option Call} {worker : String}
    {handle : WorkerHandle} (h : Good J s)
    (htold : handle.task.Told J) (hrecorded : handle.Recorded J call worker)
    (hother : ∀ worker' (handle' : WorkerHandle), worker' ≠ worker →
      handle'.Recorded J s.call worker' → handle'.Recorded J call worker') :
    Good J { s.set worker handle with call := call } := by
  intro worker' handle' hlookup
  simp only [Supervisor.set, HashMap.lookup_insert'] at hlookup
  split_ifs at hlookup with hworker
  · obtain rfl := Option.some.inj hlookup
    subst hworker
    exact ⟨htold, hrecorded⟩
  · obtain ⟨htold', hrecorded'⟩ := h worker' handle' hlookup
    exact ⟨htold', hother worker' handle' hworker hrecorded'⟩

/-- The call goes on. -/
theorem Good.of_call {call : Option Call} (h : Good J s)
    (hending : Call.Ending s.call → Call.Ending call)
    (hrecord : ∀ worker ids,
      Call.record worker ids call = Call.record worker ids s.call) :
    Good J { s with call := call } := by
  intro worker handle hlookup
  obtain ⟨htold, hrecorded⟩ := h worker handle hlookup
  exact ⟨htold, hrecorded.of_call hending (hrecord _ _)⟩

/-- A worker is sent a command. -/
theorem Good.sendTo {worker : String} {handle : WorkerHandle}
    {cmd : ControlCommand} {next failed : Call} (h : Good J s)
    (hlookup : s.workers.lookup worker = some handle)
    (hsent : s.SentTo worker handle cmd next failed s')
    (hending : Call.Ending s.call →
      Call.Ending (some next) ∧ Call.Ending (some failed))
    (hnext : ¬ Call.Ending (some next) → cmd ≠ .shutdown ∧ ∀ id,
      id ∈ ((handle.task.settled J).handleCommand J cmd).1.subscribedIds
        ↔ id ∈ Call.record worker handle.subscribedIds (some next))
    (hother : ∀ worker' ids, worker' ≠ worker →
      Call.record worker' ids (some next) = Call.record worker' ids s.call)
    (hfailed : ∀ worker' ids,
      Call.record worker' ids (some failed)
        = Call.record worker' ids s.call) : Good J s' := by
  obtain ⟨htold, hrecorded⟩ := h worker handle hlookup
  cases hsent with
  | sent hsend =>
      obtain ⟨hunhandled, hsettled, htold'⟩ :=
        WsManager.send_eq_sent (J := J) hsend
      refine h.set (htold' htold) (fun hgoing => ?_)
        fun worker' handle' hne hrec => hrec.of_call
          (fun hcall => (hending hcall).1) (hother _ _ hne)
      obtain ⟨hcmd, hids⟩ := hnext hgoing
      obtain ⟨hlive, hrunning, -⟩ :=
        hrecorded fun hcall => hgoing (hending hcall).1
      refine ⟨?_, ?_, ?_⟩
      · simp only [hunhandled, List.mem_append, List.mem_singleton, not_or]
        exact ⟨hlive, hcmd.symm⟩
      · simp only [WsManager.phase_of_send hsend]
        exact hrunning
      · simp only [hsettled]
        exact hids
  | closed _ => exact h.of_call (fun hcall => (hending hcall).2) hfailed

/-- What was sent to a worker is recorded. -/
theorem Good.note {worker : String} {handle : WorkerHandle}
    {record : List String} {next : Call} (h : Good J s)
    (hlookup : s.workers.lookup worker = some handle)
    (hgoing : ¬ Call.Ending s.call)
    (hrecord : Call.record worker handle.subscribedIds s.call = record)
    (hother : ∀ worker' ids, worker' ≠ worker →
      Call.record worker' ids s.call = ids)
    (hnext : ∀ worker' ids, Call.record worker' ids (some next) = ids) :
    Good J { s.set worker { handle with subscribedIds := record } with
      call := some next } := by
  obtain ⟨htold, hrecorded⟩ := h worker handle hlookup
  refine h.set htold (fun _ => ?_) fun worker' handle' hne hrec =>
    hrec.of_call (fun hending => absurd hending hgoing)
      ((hnext _ _).trans (hother _ _ hne).symm)
  rw [hnext, ← hrecord]
  exact hrecorded hgoing

/-- The supervisor goes on with a call. -/
theorem good_resumed {call : Call} (h : Good J s)
    (hcall : s.call = some call) (hresumed : s.Resumed call s') :
    Good J s' := by
  obtain ⟨maxSubsPerWorker, map, counter, current⟩ := s
  obtain rfl : current = some call := hcall
  cases hresumed with
  | fillEnd => exact h.of_call id fun _ _ => rfl
  | fillPass _ _ => exact h.of_call id fun _ _ => rfl
  | fillSend hlookup _ _ _ _ hsend =>
      have hrecord := ((h _ _ hlookup).2 id).2.2
      refine h.sendTo hlookup hsend False.elim
        (fun _ => ⟨by simp, fun id => ?_⟩)
        (fun worker' ids hne => if_neg hne.symm) fun _ _ => rfl
      have hid := hrecord id
      simp only [Call.record] at hid
      simp [PolymarketHandler.handleCommand, Call.record, hid]
  | fillNote hlookup =>
      exact h.note hlookup id (if_pos rfl)
        (fun worker' ids hne => if_neg hne.symm) fun _ _ => rfl
  | spawnEnd => exact h.of_call id fun _ _ => rfl
  | spawn _ =>
      refine h.set (WsManager.told_new _)
        (fun _ => ⟨by simp [WsManager.unhandled, WsManager.new], by
          simp [WsManager.new], fun id => Iff.rfl⟩) ?_
      exact fun worker' handle' hne hrec => hrec.of_call id rfl
  | removeEnd => exact h.of_call id fun _ _ => rfl
  | removePass _ _ => exact h.of_call id fun _ _ => rfl
  | removeSend hlookup htoRemove _ hsend =>
      have hrecord := ((h _ _ hlookup).2 id).2.2
      refine h.sendTo hlookup hsend False.elim
        (fun _ => ⟨by simp, fun id => ?_⟩)
        (fun worker' ids hne => if_neg hne.symm) fun _ _ => rfl
      have hid := hrecord id
      simp only [Call.record] at hid
      simp only [PolymarketHandler.handleCommand,
        PolymarketHandler.mem_removeSubscriptions, hid, Call.record,
        if_true, List.mem_filter, decide_eq_true_eq]
  | removeNote hlookup =>
      exact h.note hlookup id (if_pos rfl)
        (fun worker' ids hne => if_neg hne.symm) fun _ _ => rfl
  | stopEnd => exact h.of_call id fun _ _ => rfl
  | stopSend hlookup hsend =>
      exact h.sendTo hlookup hsend (fun _ => ⟨trivial, trivial⟩)
        (fun hgoing => absurd trivial hgoing) (fun _ _ _ => rfl)
        fun _ _ => rfl

/-- A step of the supervisor or of a worker. -/
theorem good_step {action : Action} (h : Good J s)
    (hstep : s.step J action = some s') : Good J s' := by
  cases stepped_of_step hstep with
  | subscribe hidle _ =>
      refine h.of_call ?_ ?_
      · rw [hidle]
        exact id
      · rw [hidle]
        exact fun _ _ => rfl
  | unsubscribe hidle _ =>
      refine h.of_call ?_ ?_
      · rw [hidle]
        exact id
      · rw [hidle]
        exact fun _ _ => rfl
  | terminate hidle _ =>
      refine h.of_call (fun _ => trivial) ?_
      rw [hidle]
      exact fun _ _ => rfl
  | resume hcall hresumed => exact good_resumed h hcall hresumed
  | worker hlookup htask =>
      obtain ⟨htold, hrecorded⟩ := h _ _ hlookup
      refine h.set (htold.step htask) (fun hgoing => ?_)
        fun _ _ _ hrec => hrec
      obtain ⟨hlive, hrunning, hids⟩ := hrecorded hgoing
      have hnot : s.call ≠ some .joining := by
        intro hjoining
        rw [hjoining] at hgoing
        exact hgoing trivial
      rw [decide_eq_false hnot] at htask
      obtain ⟨hsettled, hunhandled, hphase⟩ :=
        WsManager.settled_step hlive htask
      refine ⟨fun hmem => hlive (hunhandled hmem),
        fun hstopped => hrunning (hphase hstopped), ?_⟩
      simp only [hsettled]
      exact hids

/-- No subscription is lost across reconnects. -/
theorem subscriptions_survive {maxSubsPerWorker : Nat} {s : Supervisor}
    (hrun : Reached (Supervisor.step J) (fun _ _ => True)
      (.new maxSubsPerWorker) s) {worker : String} {handle : WorkerHandle}
    (hlookup : s.workers.lookup worker = some handle) :
    (handle.task.phase = .waiting →
      ∀ id ∈ handle.task.handler.subscribedIds,
        Requested J handle.task.sent id)
    ∧ (s.call = none → handle.task.commandRx = [] →
      (∀ cmd, handle.task.phase ≠ .handling cmd) →
      ∀ id, id ∈ handle.task.handler.subscribedIds
        ↔ id ∈ handle.subscribedIds) := by
  have hgood : Good J s := by
    refine hrun.invariant ?_ fun s action s' h _ hstep => good_step h hstep
    intro worker handle hnone
    cases hnone
  obtain ⟨htold, hrecorded⟩ := hgood worker handle hlookup
  refine ⟨fun hwaiting id hid => ?_, fun hidle hempty hfree => ?_⟩
  · have hasked := htold (by simp [hwaiting]) (by simp [hwaiting]) id hid
    rwa [WsManager.told, hwaiting] at hasked
  · rw [WorkerHandle.Recorded, hidle] at hrecorded
    obtain ⟨-, -, hids⟩ := hrecorded id
    have hnothing : handle.task.unhandled = [] := by
      unfold WsManager.unhandled
      split
      · next cmd hphase => exact absurd hphase (hfree cmd)
      · exact hempty
    rw [WsManager.settled, hnothing] at hids
    exact hids

/-- A worker is told to subscribe to one more asset and loses its
connection while it writes that: the next connection asks for it. -/
theorem subscriptions_survive_failed_write :
    ∃ s handle, Reached (Supervisor.step compactJson) (fun _ _ => True)
        (.new 50) s
      ∧ s.workers.lookup "poly-worker-1" = some handle
      ∧ Requested compactJson handle.task.sent "c"
      ∧ "c" ∈ handle.subscribedIds := by
  let actions : List Action :=
    [.subscribe ["a", "b"] [], .resume, .resume, .resume,
      .worker "poly-worker-1" .connect, .worker "poly-worker-1" .written,
      .subscribe ["c"] ["poly-worker-1"], .resume,
      .worker "poly-worker-1" .take, .worker "poly-worker-1" .handle,
      .worker "poly-worker-1" .writeFails, .resume, .resume, .resume,
      .worker "poly-worker-1" .connect, .worker "poly-worker-1" .written]
  let handle : WorkerHandle :=
    ⟨["a", "b", "c"], ⟨["a", "b", "c"]⟩, [], .waiting,
      [⟨buildSubscriptionMessage compactJson ["a", "b", "c"],
        ["a", "b", "c"]⟩]⟩
  obtain ⟨s, hrun, hlookup, hidle⟩ :
      ∃ s, Reached (Supervisor.step compactJson) (fun _ _ => True)
          (.new 50) s
        ∧ s.workers.lookup "poly-worker-1" = some handle
          ∧ s.call = none :=
    exists_reached actions (by decide +kernel)
  obtain ⟨hrequested, hagree⟩ := subscriptions_survive hrun hlookup
  have hc : "c" ∈ handle.task.handler.subscribedIds := by decide
  exact ⟨s, handle, hrun, hlookup, hrequested rfl "c" hc,
    (hagree hidle rfl (fun _ h => by cases h) "c").1 hc⟩

end Supervisor

end Wup.Aggregator
