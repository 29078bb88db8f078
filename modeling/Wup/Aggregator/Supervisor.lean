/-
The supervisor (`supervisor.rs`) and its workers.

The supervisor is stepped between its waits. A call walks over the
workers in the order their hash map yields them, sends a command to each
that is concerned, and records what it sent once the channel has taken it;
workers go on meanwhile. It waits where a channel is full.

`subscribe_with_mappings` does what `subscribe` does with the ids of its
mappings. The mappings themselves are left out: nothing reads them.
-/
import Wup.Aggregator.WsManager
import Wup.Lib.HashMap
import Wup.Lib.Runs

namespace Wup.Aggregator

open Polymarket

variable (J : SerdeJson)

structure WorkerHandle where
  /-- The ids the supervisor takes the worker to be subscribed to. -/
  subscribedIds : List String
  /-- The task at the other end of the command channel. -/
  task : WsManager
deriving DecidableEq, Repr

/-- Where the supervisor stands in a call. -/
inductive Call
  /-- `subscribe`: fill the workers that are left to see. -/
  | filling (remaining workers : List String)
  /-- `subscribe`: a worker was sent some ids. -/
  | filled (worker : String) (toAdd remaining workers : List String)
  /-- `subscribe`: spawn workers for what is left. -/
  | spawning (remaining : List String)
  /-- `unsubscribe`: see to the workers that are left. -/
  | removing (ids workers : List String)
  /-- `unsubscribe`: a worker was told to drop some ids. -/
  | removed (worker : String) (toRemove ids workers : List String)
  /-- `run`: tell the workers that are left to stop. -/
  | stopping (workers : List String)
  /-- `run`: wait for all workers, their handles given up. -/
  | joining
deriving DecidableEq, Repr

structure Supervisor where
  maxSubsPerWorker : Nat
  workers : HashMap String WorkerHandle
  workerCounter : Nat
  /-- The call in progress. -/
  call : Option Call

/-- A step of the supervisor or of one of its workers. -/
inductive Action
  | subscribe (ids workers : List String)
  | unsubscribe (ids workers : List String)
  /-- The termination signal arrives in `run`. -/
  | terminate (workers : List String)
  /-- The call in progress goes on. -/
  | resume
  | worker (id : String) (action : WorkerAction)

namespace Supervisor

def new (maxSubsPerWorker : Nat) : Supervisor where
  maxSubsPerWorker := maxSubsPerWorker
  workers := ∅
  workerCounter := 0
  call := none

/-- `is_subscribed`. -/
def isSubscribed (s : Supervisor) (id : String) : Bool :=
  s.workers.values.any fun handle => id ∈ handle.subscribedIds

/-- A list of the workers, in the order a walk over them takes. -/
def Lists (s : Supervisor) (workers : List String) : Prop :=
  workers.Perm s.workers.keys

instance (s : Supervisor) (workers : List String) :
    Decidable (s.Lists workers) :=
  inferInstanceAs (Decidable (List.Perm _ _))

/-- Replace a worker. -/
def set (s : Supervisor) (worker : String) (handle : WorkerHandle) :
    Supervisor :=
  { s with workers := s.workers.insert worker handle }

def spawnWorker (s : Supervisor) (initialIds : List String) : Supervisor :=
  let counter := s.workerCounter + 1
  { s with
    workerCounter := counter
    workers := s.workers.insert s!"poly-worker-{counter}"
      ⟨initialIds, .new (.new initialIds)⟩ }

/-- Send a worker a command, and go on with `next` once the channel has
taken it and with `failed` where its receiver is gone. -/
def sendTo (s : Supervisor) (worker : String) (handle : WorkerHandle)
    (cmd : ControlCommand) (next failed : Call) : Option Supervisor :=
  match handle.task.send cmd with
  | .sent task =>
      some { s.set worker { handle with task := task } with
        call := some next }
  | .full => none
  | .closed => some { s with call := some failed }

/-- Go on with a call. -/
def resume (s : Supervisor) : Call → Option Supervisor
  | .filling remaining [] =>
      some { s with call := some (.spawning remaining) }
  | .filling remaining (worker :: workers) =>
      match s.workers.lookup worker with
      | none => none
      | some handle =>
          let available := s.maxSubsPerWorker - handle.subscribedIds.length
          let toAdd := remaining.take available
          let rest := remaining.drop available
          if remaining = [] ∨ available = 0 then
            some { s with call := some (.filling remaining workers) }
          else
            s.sendTo worker handle (.subscribe toAdd)
              (.filled worker toAdd rest workers)
              (.filling (rest ++ toAdd) workers)
  | .filled worker toAdd remaining workers =>
      match s.workers.lookup worker with
      | none => none
      | some handle =>
          some { s.set worker { handle with
              subscribedIds := handle.subscribedIds ++ toAdd } with
            call := some (.filling remaining workers) }
  | .spawning remaining =>
      if remaining = [] then some { s with call := none }
      else
        some { s.spawnWorker (remaining.take s.maxSubsPerWorker) with
          call := some (.spawning (remaining.drop s.maxSubsPerWorker)) }
  | .removing _ [] => some { s with call := none }
  | .removing ids (worker :: workers) =>
      match s.workers.lookup worker with
      | none => none
      | some handle =>
          let toRemove := ids.filter fun id => id ∈ handle.subscribedIds
          if toRemove = [] then
            some { s with call := some (.removing ids workers) }
          else
            s.sendTo worker handle (.unsubscribe toRemove)
              (.removed worker toRemove ids workers) (.removing ids workers)
  | .removed worker toRemove ids workers =>
      match s.workers.lookup worker with
      | none => none
      | some handle =>
          some { s.set worker { handle with
              subscribedIds := handle.subscribedIds.filter
                fun id => id ∉ toRemove } with
            call := some (.removing ids workers) }
  | .stopping [] => some { s with call := some .joining }
  | .stopping (worker :: workers) =>
      match s.workers.lookup worker with
      | none => none
      | some handle =>
          s.sendTo worker handle .shutdown (.stopping workers)
            (.stopping workers)
  | .joining => none

/-- Take a step; `none` where it cannot be taken now. -/
def step (s : Supervisor) : Action → Option Supervisor
  | .subscribe ids workers =>
      if s.call = none ∧ s.Lists workers then
        some { s with
          call := some (.filling (ids.filter fun id => !s.isSubscribed id)
            workers) }
      else none
  | .unsubscribe ids workers =>
      if s.call = none ∧ s.Lists workers then
        some { s with call := some (.removing ids workers) }
      else none
  | .terminate workers =>
      if s.call = none ∧ s.Lists workers then
        some { s with call := some (.stopping workers) }
      else none
  | .resume => s.call.bind s.resume
  | .worker id action =>
      match s.workers.lookup id with
      | none => none
      | some handle =>
          (handle.task.step J (s.call = some .joining) action).map
            fun task => s.set id { handle with task := task }

end Supervisor

end Wup.Aggregator
