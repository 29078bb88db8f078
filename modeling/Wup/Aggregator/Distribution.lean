/-
The calls of the supervisor as a whole (`supervisor.rs`): how ids are
distributed over the pool of workers.

A call sees to each worker once at most, in the order the hash map yields
them, and what becomes of the send to a worker is whether its command
channel is closed by then (`Occasion`). A send to an open channel is
taken to complete. What the workers do with what they are sent is in
Aggregator/Supervisor.lean, which takes the same calls step by step
(Proofs/Refinement.lean: between calls it has come to the same).

The loop that spawns workers drains ids until none is left. It has not
ended after as many turns as there were ids only where it drains none
(`maxSubsPerWorker = 0`), and then never will: `none`.

The supervisor's own map of token mappings is left out: nothing reads it.
-/
import Wup.Lib.HashMap

namespace Wup.Aggregator

/-- `TokenMapping` of the external services. -/
structure TokenMapping where
  clobTokenId : String
  marketId : String
  eventSlug : String
deriving DecidableEq, Repr

/-- What the supervisor keeps of its workers. -/
structure Pool where
  maxSubsPerWorker : Nat
  /-- The ids each worker is taken to be subscribed to. -/
  workers : HashMap String (List String)
  workerCounter : Nat

/-- What a call meets with. -/
structure Occasion where
  order : HashMap.IterOrder String (List String)
  /-- The worker's command channel is closed. -/
  closed : String → Bool

namespace Pool

def new (maxSubsPerWorker : Nat) : Pool := ⟨maxSubsPerWorker, ∅, 0⟩

/-- `is_subscribed`. -/
def isSubscribed (p : Pool) (id : String) : Bool :=
  p.workers.values.any fun subscribedIds => id ∈ subscribedIds

/-- Replace what is kept of a worker. -/
def set (p : Pool) (worker : String) (subscribedIds : List String) : Pool :=
  { p with workers := p.workers.insert worker subscribedIds }

def workerId (n : Nat) : String := "poly-worker-" ++ toString n

/-- `spawn_worker`, and `spawn_worker_with_mappings` with the ids of the
mappings. -/
def spawnWorker (p : Pool) (initialIds : List String) : Pool :=
  let counter := p.workerCounter + 1
  { p with
    workerCounter := counter
    workers := p.workers.insert (workerId counter) initialIds }

section Distribute

variable {α : Type*} (idOf : α → String)

/-- Fill existing workers: the pool afterwards, and what remains. -/
def fill (closed : String → Bool) (p : Pool) (remaining : List α) :
    List (String × List String) → Pool × List α
  | [] => (p, remaining)
  | (worker, subscribedIds) :: workers =>
      if remaining = [] then (p, remaining)
      else
        let available := p.maxSubsPerWorker - subscribedIds.length
        if 0 < available then
          let toAdd := remaining.take available
          let rest := remaining.drop available
          if closed worker then
            -- the worker is dead, put them back
            fill closed p (rest ++ toAdd) workers
          else
            fill closed
              (p.set worker (subscribedIds ++ toAdd.map idOf)) rest workers
        else fill closed p remaining workers

/-- Spawn new workers for what remains. -/
def spawnAll : Nat → Pool → List α → Option Pool
  | _, p, [] => some p
  | 0, _, _ :: _ => none
  | turns + 1, p, remaining@(_ :: _) =>
      spawnAll turns
        (p.spawnWorker ((remaining.take p.maxSubsPerWorker).map idOf))
        (remaining.drop p.maxSubsPerWorker)

/-- Distribute what is not subscribed yet. -/
def distribute (p : Pool) (o : Occasion) (requested : List α) :
    Option Pool :=
  let new := requested.filter fun x => !p.isSubscribed (idOf x)
  let (p, remaining) := fill idOf o.closed p new (o.order.entries p.workers)
  spawnAll idOf remaining.length p remaining

end Distribute

def subscribeWithMappings (p : Pool) (o : Occasion)
    (mappings : List TokenMapping) : Option Pool :=
  p.distribute (·.clobTokenId) o mappings

def subscribe (p : Pool) (o : Occasion) (ids : List String) :
    Option Pool :=
  p.distribute id o ids

def unsubscribe (p : Pool) (o : Occasion) (ids : List String) : Pool :=
  (o.order.entries p.workers).foldl (fun p e =>
    let toRemove := ids.filter fun id => id ∈ e.2
    if toRemove = [] ∨ o.closed e.1 then p
    else p.set e.1 (e.2.filter fun id => id ∉ toRemove)) p

end Pool

-- ==================================================================== runs

inductive PoolCall
  | subscribe (ids : List String)
  | subscribeWithMappings (mappings : List TokenMapping)
  | unsubscribe (ids : List String)
deriving DecidableEq, Repr

namespace PoolCall

/-- The ids a call asks for; none where it unsubscribes. -/
def requested : PoolCall → List String
  | .subscribe ids => ids
  | .subscribeWithMappings mappings => mappings.map (·.clobTokenId)
  | .unsubscribe _ => []

/-- The call subscribes. -/
def Subscribes : PoolCall → Prop
  | .unsubscribe _ => False
  | _ => True

end PoolCall

namespace Pool

/-- Make a call; `none` where it does not return. -/
def call (p : Pool) (o : Occasion) : PoolCall → Option Pool
  | .subscribe ids => p.subscribe o ids
  | .subscribeWithMappings mappings => p.subscribeWithMappings o mappings
  | .unsubscribe ids => some (p.unsubscribe o ids)

/-- Make a call on an occasion. -/
def step (p : Pool) (c : Occasion × PoolCall) : Option Pool :=
  p.call c.1 c.2

/-- All ids over all workers. -/
def allIds (p : Pool) : Multiset String := p.workers.values.flatten

/-- The requested ids that nobody is subscribed to. -/
def newIds (p : Pool) (ids : List String) : List String :=
  ids.filter fun id => !p.isSubscribed id

/-- The worker is in the pool, with these ids. -/
def Has (p : Pool) (worker : String) (subscribedIds : List String) : Prop :=
  p.workers.lookup worker = some subscribedIds

instance (p : Pool) (worker : String) (subscribedIds : List String) :
    Decidable (p.Has worker subscribedIds) :=
  inferInstanceAs (Decidable (_ = _))

/-- The id is recorded at a worker whose command channel is open. -/
def AtOpen (closed : String → Bool) (p : Pool) (id : String) : Prop :=
  ∃ worker subscribedIds, p.Has worker subscribedIds
    ∧ id ∈ subscribedIds ∧ closed worker = false

end Pool

end Wup.Aggregator
