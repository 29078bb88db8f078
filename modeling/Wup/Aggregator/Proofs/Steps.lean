/-
What a step of the supervisor or of a worker does.

`WsManager.Stepped` lists the ways a worker's task goes on, one for each
branch of the code, with what has to hold for it and the state it leaves.
`Resumed` does the same for a call of the supervisor, where a send is one
way with two outcomes (`SentTo`), and `Supervisor.Stepped` for a whole
step. An invariant is a case split over them and needs no look at the
code.
-/
import Wup.Aggregator.Supervisor

namespace Wup.Aggregator

open Polymarket

variable {J : SerdeJson}

-- ================================================================ a worker

namespace WsManager

variable {w w' : WsManager} {hungUp : Bool}

/-- The manager's task takes a step. -/
inductive Stepped (J : SerdeJson) (hungUp : Bool) (w : WsManager) :
    WorkerAction → WsManager → Prop
  | connectSilent (hphase : w.phase = .offline)
      (hsilent : w.handler.onConnectMessage J = none) :
      Stepped J hungUp w .connect { w with phase := .waiting, sent := [] }
  | connectAsks {text : String} (hphase : w.phase = .offline)
      (hasks : w.handler.onConnectMessage J = some text) :
      Stepped J hungUp w .connect
        { w with
          phase := .writing ⟨text, w.handler.subscribedIds⟩
          sent := [] }
  | connectFails (hphase : w.phase = .offline) :
      Stepped J hungUp w .connectFails w
  | written {request : Request} (hphase : w.phase = .writing request) :
      Stepped J hungUp w .written
        { w with phase := .waiting, sent := w.sent ++ [request] }
  | writeFails {request : Request} (hphase : w.phase = .writing request) :
      Stepped J hungUp w .writeFails { w with phase := .offline }
  | takeShutdown {cmds : List ControlCommand} (hphase : w.phase = .waiting)
      (hqueue : w.commandRx = .shutdown :: cmds) :
      Stepped J hungUp w .take
        { w with phase := .stopped, commandRx := cmds }
  | take {cmd : ControlCommand} {cmds : List ControlCommand}
      (hphase : w.phase = .waiting) (hqueue : w.commandRx = cmd :: cmds)
      (hcmd : cmd ≠ .shutdown) :
      Stepped J hungUp w .take
        { w with phase := .handling cmd, commandRx := cmds }
  | handleAsks {cmd : ControlCommand} {handler : PolymarketHandler}
      {text : String} (hphase : w.phase = .handling cmd)
      (hhandle : w.handler.handleCommand J cmd = (handler, some text)) :
      Stepped J hungUp w .handle
        { w with
          handler := handler
          phase := .writing ⟨text, asksFor cmd⟩ }
  | handleSilent {cmd : ControlCommand} {handler : PolymarketHandler}
      (hphase : w.phase = .handling cmd)
      (hhandle : w.handler.handleCommand J cmd = (handler, none)) :
      Stepped J hungUp w .handle
        { w with handler := handler, phase := .waiting }
  | drop (hphase : w.phase = .waiting) :
      Stepped J hungUp w .drop { w with phase := .offline }
  | closed (hphase : w.phase = .waiting) (hqueue : w.commandRx = [])
      (hhungUp : hungUp = true) :
      Stepped J hungUp w .closed { w with phase := .stopped }

theorem stepped_of_step {action : WorkerAction}
    (h : w.step J hungUp action = some w') :
    w.Stepped J hungUp action w' := by
  cases action with
  | connect =>
      obtain ⟨hphase, hafter⟩ := Option.ite_none_right_eq_some.1 h
      split at hafter
      · next hasks =>
          obtain rfl := Option.some.inj hafter
          exact .connectAsks hphase hasks
      · next hsilent =>
          obtain rfl := Option.some.inj hafter
          exact .connectSilent hphase hsilent
  | connectFails =>
      obtain ⟨hphase, hafter⟩ := Option.ite_none_right_eq_some.1 h
      obtain rfl := Option.some.inj hafter
      exact .connectFails hphase
  | written =>
      simp only [step] at h
      split at h
      · next hphase =>
          obtain rfl := Option.some.inj h
          exact .written hphase
      · cases h
  | writeFails =>
      simp only [step] at h
      split at h
      · next hphase =>
          obtain rfl := Option.some.inj h
          exact .writeFails hphase
      · cases h
  | take =>
      simp only [step] at h
      split at h
      · next hphase hqueue =>
          obtain rfl := Option.some.inj h
          exact .takeShutdown hphase hqueue
      · next hcmd hphase hqueue =>
          obtain rfl := Option.some.inj h
          exact .take hphase hqueue hcmd
      · cases h
  | handle =>
      simp only [step] at h
      split at h
      · next hphase =>
          split at h
          · next hhandle =>
              obtain rfl := Option.some.inj h
              exact .handleAsks hphase hhandle
          · next hhandle =>
              obtain rfl := Option.some.inj h
              exact .handleSilent hphase hhandle
      · cases h
  | drop =>
      obtain ⟨hphase, hafter⟩ := Option.ite_none_right_eq_some.1 h
      obtain rfl := Option.some.inj hafter
      exact .drop hphase
  | closed =>
      obtain ⟨⟨hphase, hqueue, hhungUp⟩, hafter⟩ :=
        Option.ite_none_right_eq_some.1 h
      obtain rfl := Option.some.inj hafter
      exact .closed hphase hqueue hhungUp

/-- A command that is sent does not move the task. -/
theorem phase_of_send {cmd : ControlCommand} (h : w.send cmd = .sent w') :
    w'.phase = w.phase := by
  unfold send at h
  split_ifs at h
  cases h
  rfl

end WsManager

namespace Supervisor

variable {s s' : Supervisor}

-- =================================================================== sends

/-- The command is in the worker's queue, or its receiver is gone. -/
inductive SentTo (s : Supervisor) (worker : String) (handle : WorkerHandle)
    (cmd : ControlCommand) (next failed : Call) : Supervisor → Prop
  | sent {task : WsManager} (hsend : handle.task.send cmd = .sent task) :
      SentTo s worker handle cmd next failed
        { s.set worker { handle with task := task } with
          call := some next }
  | closed (hsend : handle.task.send cmd = .closed) :
      SentTo s worker handle cmd next failed { s with call := some failed }

theorem sentTo_of_sendTo {worker : String} {handle : WorkerHandle}
    {cmd : ControlCommand} {next failed : Call}
    (h : s.sendTo worker handle cmd next failed = some s') :
    s.SentTo worker handle cmd next failed s' := by
  unfold sendTo at h
  split at h
  · next hsend =>
      obtain rfl := Option.some.inj h
      exact .sent hsend
  · cases h
  · next hsend =>
      obtain rfl := Option.some.inj h
      exact .closed hsend

-- =================================================================== calls

/-- The call goes on. -/
inductive Resumed (s : Supervisor) : Call → Supervisor → Prop
  | fillEnd {remaining : List String} :
      Resumed s (.filling remaining [])
        { s with call := some (.spawning remaining) }
  | fillPass {remaining workers : List String} {worker : String}
      {handle : WorkerHandle}
      (hlookup : s.workers.lookup worker = some handle)
      (hpass : remaining = []
        ∨ s.maxSubsPerWorker - handle.subscribedIds.length = 0) :
      Resumed s (.filling remaining (worker :: workers))
        { s with call := some (.filling remaining workers) }
  | fillSend {remaining workers toAdd rest : List String} {worker : String}
      {handle : WorkerHandle} {s' : Supervisor}
      (hlookup : s.workers.lookup worker = some handle)
      (hremaining : remaining ≠ [])
      (hroom : 0 < s.maxSubsPerWorker - handle.subscribedIds.length)
      (htoAdd : remaining.take
        (s.maxSubsPerWorker - handle.subscribedIds.length) = toAdd)
      (hrest : remaining.drop
        (s.maxSubsPerWorker - handle.subscribedIds.length) = rest)
      (hsend : s.SentTo worker handle (.subscribe toAdd)
        (.filled worker toAdd rest workers)
        (.filling (rest ++ toAdd) workers) s') :
      Resumed s (.filling remaining (worker :: workers)) s'
  | fillNote {remaining workers toAdd : List String} {worker : String}
      {handle : WorkerHandle}
      (hlookup : s.workers.lookup worker = some handle) :
      Resumed s (.filled worker toAdd remaining workers)
        { s.set worker { handle with
            subscribedIds := handle.subscribedIds ++ toAdd } with
          call := some (.filling remaining workers) }
  | spawnEnd : Resumed s (.spawning []) { s with call := none }
  | spawn {remaining : List String} (hremaining : remaining ≠ []) :
      Resumed s (.spawning remaining)
        { s.spawnWorker (remaining.take s.maxSubsPerWorker) with
          call := some (.spawning (remaining.drop s.maxSubsPerWorker)) }
  | removeEnd {ids : List String} :
      Resumed s (.removing ids []) { s with call := none }
  | removePass {ids workers : List String} {worker : String}
      {handle : WorkerHandle}
      (hlookup : s.workers.lookup worker = some handle)
      (hnone : (ids.filter fun id => id ∈ handle.subscribedIds) = []) :
      Resumed s (.removing ids (worker :: workers))
        { s with call := some (.removing ids workers) }
  | removeSend {ids workers toRemove : List String} {worker : String}
      {handle : WorkerHandle} {s' : Supervisor}
      (hlookup : s.workers.lookup worker = some handle)
      (htoRemove : (ids.filter fun id => id ∈ handle.subscribedIds)
        = toRemove)
      (hsome : toRemove ≠ [])
      (hsend : s.SentTo worker handle (.unsubscribe toRemove)
        (.removed worker toRemove ids workers) (.removing ids workers) s') :
      Resumed s (.removing ids (worker :: workers)) s'
  | removeNote {ids workers toRemove : List String} {worker : String}
      {handle : WorkerHandle}
      (hlookup : s.workers.lookup worker = some handle) :
      Resumed s (.removed worker toRemove ids workers)
        { s.set worker { handle with
            subscribedIds := handle.subscribedIds.filter
              fun id => id ∉ toRemove } with
          call := some (.removing ids workers) }
  | stopEnd : Resumed s (.stopping []) { s with call := some .joining }
  | stopSend {workers : List String} {worker : String}
      {handle : WorkerHandle} {s' : Supervisor}
      (hlookup : s.workers.lookup worker = some handle)
      (hsend : s.SentTo worker handle .shutdown (.stopping workers)
        (.stopping workers) s') :
      Resumed s (.stopping (worker :: workers)) s'

theorem resumed_of_resume {call : Call} (h : s.resume call = some s') :
    s.Resumed call s' := by
  cases call with
  | filling remaining workers =>
      cases workers with
      | nil =>
          obtain rfl := Option.some.inj h
          exact .fillEnd
      | cons worker workers =>
          simp only [resume] at h
          split at h
          · cases h
          · next handle hlookup =>
              split at h
              · next hpass =>
                  obtain rfl := Option.some.inj h
                  exact .fillPass hlookup hpass
              · next hneed =>
                  obtain ⟨hremaining, hroom⟩ := not_or.1 hneed
                  exact .fillSend hlookup hremaining
                    (Nat.pos_of_ne_zero hroom) rfl rfl (sentTo_of_sendTo h)
  | filled worker toAdd remaining workers =>
      simp only [resume] at h
      split at h
      · cases h
      · next handle hlookup =>
          obtain rfl := Option.some.inj h
          exact .fillNote hlookup
  | spawning remaining =>
      simp only [resume] at h
      split at h
      · next hnone =>
          obtain rfl := hnone
          obtain rfl := Option.some.inj h
          exact .spawnEnd
      · next hremaining =>
          obtain rfl := Option.some.inj h
          exact .spawn hremaining
  | removing ids workers =>
      cases workers with
      | nil =>
          obtain rfl := Option.some.inj h
          exact .removeEnd
      | cons worker workers =>
          simp only [resume] at h
          split at h
          · cases h
          · next handle hlookup =>
              split at h
              · next hnone =>
                  obtain rfl := Option.some.inj h
                  exact .removePass hlookup hnone
              · next hsome =>
                  exact .removeSend hlookup rfl hsome (sentTo_of_sendTo h)
  | removed worker toRemove ids workers =>
      simp only [resume] at h
      split at h
      · cases h
      · next handle hlookup =>
          obtain rfl := Option.some.inj h
          exact .removeNote hlookup
  | stopping workers =>
      cases workers with
      | nil =>
          obtain rfl := Option.some.inj h
          exact .stopEnd
      | cons worker workers =>
          simp only [resume] at h
          split at h
          · cases h
          · next handle hlookup =>
              exact .stopSend hlookup (sentTo_of_sendTo h)
  | joining => cases h

-- =================================================================== steps

/-- The supervisor or one of its workers takes a step. -/
inductive Stepped (J : SerdeJson) (s : Supervisor) :
    Action → Supervisor → Prop
  | subscribe {ids workers : List String} (hidle : s.call = none)
      (hlists : s.Lists workers) :
      Stepped J s (.subscribe ids workers)
        { s with
          call := some (.filling
            (ids.filter fun id => !s.isSubscribed id) workers) }
  | unsubscribe {ids workers : List String} (hidle : s.call = none)
      (hlists : s.Lists workers) :
      Stepped J s (.unsubscribe ids workers)
        { s with call := some (.removing ids workers) }
  | terminate {workers : List String} (hidle : s.call = none)
      (hlists : s.Lists workers) :
      Stepped J s (.terminate workers)
        { s with call := some (.stopping workers) }
  | resume {call : Call} {s' : Supervisor} (hcall : s.call = some call)
      (hresumed : s.Resumed call s') : Stepped J s .resume s'
  | worker {id : String} {action : WorkerAction} {handle : WorkerHandle}
      {task : WsManager} (hlookup : s.workers.lookup id = some handle)
      (htask : handle.task.step J (s.call = some .joining) action
        = some task) :
      Stepped J s (.worker id action)
        (s.set id { handle with task := task })

theorem stepped_of_step {action : Action}
    (h : s.step J action = some s') : s.Stepped J action s' := by
  cases action with
  | subscribe ids workers =>
      obtain ⟨⟨hidle, hlists⟩, hafter⟩ := Option.ite_none_right_eq_some.1 h
      obtain rfl := Option.some.inj hafter
      exact .subscribe hidle hlists
  | unsubscribe ids workers =>
      obtain ⟨⟨hidle, hlists⟩, hafter⟩ := Option.ite_none_right_eq_some.1 h
      obtain rfl := Option.some.inj hafter
      exact .unsubscribe hidle hlists
  | terminate workers =>
      obtain ⟨⟨hidle, hlists⟩, hafter⟩ := Option.ite_none_right_eq_some.1 h
      obtain rfl := Option.some.inj hafter
      exact .terminate hidle hlists
  | resume =>
      obtain ⟨call, hcall, hresume⟩ := Option.bind_eq_some_iff.1 h
      exact .resume hcall (resumed_of_resume hresume)
  | worker id action =>
      simp only [step] at h
      split at h
      · cases h
      · next handle hlookup =>
          obtain ⟨task, htask, rfl⟩ := Option.map_eq_some_iff.1 h
          exact .worker hlookup htask

end Supervisor

end Wup.Aggregator
