/-
From the exchange to the consumers: the services as one system, on texts.

Any number of exchange connections normalize frames and publish what they
become, one publication after the other; a publication that fails ends the
frame. The orderbook service takes payloads in the order NATS delivers
them, applies them and publishes events; the executor's cache and the
gateway's router take the events, each at its own pace. Between them there
is text only, under subjects that the subscriptions of `main` have to
match.

The parties move one at a time, in any order. The clients' side of the
gateway moves as its sockets do. The cache's task ends for good where it
blocks itself.

Subscriptions are in place from the start, and NATS delivers each
publication to all of them that match, in the order of publication: a
consumer that falls behind loses nothing. A payload that is not text does
not occur: what is published is text. Nor does a panic of the orderbook
service: the totals of the levels it publishes are taken to be in range.
-/
import Wup.Gateway.Streams
import Wup.Normalizer.Service
import Wup.Wire.Consumers

namespace Wup

open Executor (BboCache)
open Gateway (ClientRegistry SocketAction)
open Normalizer (GroupOrders)
open Polymarket.PolymarketHandler (onMessage normalizeFrame)

-- =========================================================== subscriptions

/-- What the orderbook service subscribes to, by default. -/
def orderbookServiceSubject : String := "normalized.polymarket.>"

/-- What the executor's cache subscribes to. -/
def bboCacheSubject : String := "orderbook.changes.>"

/-- What the gateway's router subscribes to, by default. -/
def routerSubject : String := "orderbook.changes.>"

/-- A queue of a subscription after a publication. -/
def deliver (nats : Nats) (pattern : String) (queue : List Publication)
    (pub : Publication) : List Publication :=
  if nats.Delivers pattern pub then queue ++ [pub] else queue

/-- The ids of a message can be part of a subject. -/
def NormalizedOrderbook.Legal (msg : NormalizedOrderbook) : Prop :=
  LegalSubject msg.marketId ∧ LegalSubject msg.clobTokenId

instance (msg : NormalizedOrderbook) : Decidable msg.Legal :=
  inferInstanceAs (Decidable (_ ∧ _))

-- ============================================================== the system

/-- The state of all parties. -/
structure Pipeline (Worker : Type) where
  /-- What a connection has still to publish of its frame. -/
  outbox : Worker → List Publication
  /-- What waits for the orderbook service. -/
  normalized : List Publication
  store : OrderbookStore
  /-- What waits for the executor's cache. -/
  toExecutor : List Publication
  cache : BboCache
  /-- The cache's task is blocked. -/
  blocked : Bool
  /-- What waits for the gateway's router. -/
  toGateway : List Publication
  registry : ClientRegistry

/-- A step of one of the parties. -/
inductive PipelineAction (Worker : Type)
  /-- A connection receives a frame. -/
  | frame (worker : Worker) (orders : GroupOrders) (normalizedAt : String)
      (receivedAt : Int) (msg : String)
  /-- A connection publishes the next message of its frame. -/
  | publish (worker : Worker)
  /-- A publication of a connection fails. -/
  | publishFails (worker : Worker)
  /-- The orderbook service processes a payload; its own publication may
  fail. -/
  | process (now : Int) (sent : Bool)
  | cache
  | route
  /-- The clients' side of the gateway moves. -/
  | socket (action : SocketAction)

/-- The event a step of the gateway fans out. -/
def routed : SocketAction → Option AggregatedPriceChangeEvent
  | .route event => some event
  | _ => none

namespace Pipeline

variable {Worker : Type} [DecidableEq Worker]

/-- Before anything was received. -/
def start : Pipeline Worker where
  outbox := fun _ => []
  normalized := []
  store := .new
  toExecutor := []
  cache := .new
  blocked := false
  toGateway := []
  registry := .new

variable (D : RustDecimal) (J : SerdeJson) (nats : Nats)
  (service : OrderbookService)

/-- Take a step; `none` where the party cannot take it now. -/
def step (s : Pipeline Worker) :
    PipelineAction Worker → Option (Pipeline Worker)
  | .frame worker orders normalizedAt receivedAt msg =>
      -- a connection handles one frame at a time
      if s.outbox worker = [] then
        some { s with
          outbox := Function.update s.outbox worker
            (onMessage J orders normalizedAt receivedAt msg) }
      else none
  | .publish worker =>
      match s.outbox worker with
      | pub :: rest =>
          some { s with
            outbox := Function.update s.outbox worker rest
            normalized := deliver nats orderbookServiceSubject
              s.normalized pub }
      | [] => none
  | .publishFails worker =>
      match s.outbox worker with
      | _ :: _ =>
          some { s with outbox := Function.update s.outbox worker [] }
      | [] => none
  | .process now sent =>
      match s.normalized with
      | pub :: rest =>
          let r := service.processPayload D J s.store pub.payload now
          let published := if sent then r.2.toList else []
          some { s with
            normalized := rest
            store := r.1
            toExecutor :=
              published.foldl (deliver nats bboCacheSubject) s.toExecutor
            toGateway :=
              published.foldl (deliver nats routerSubject) s.toGateway }
      | [] => none
  | .cache =>
      match s.toExecutor with
      | pub :: rest =>
          if s.blocked then none
          else
            let r := s.cache.handlePayload D J pub.payload
            some { s with
              toExecutor := rest
              cache := r.1
              blocked := decide (r.2 = some .blocked) }
      | [] => none
  | .route =>
      match s.toGateway with
      | pub :: rest =>
          some { s with
            toGateway := rest
            registry := (Gateway.handlePayload J s.registry
              pub.payload).getD s.registry }
      | [] => none
  | .socket action =>
      if (routed action).isSome then none
      else (s.registry.socketStep action).map fun registry =>
        { s with registry := registry }

/-- Take several steps from the start. -/
def run (actions : List (PipelineAction Worker)) :
    Option (Pipeline Worker) :=
  actions.foldlM (step D J nats service) start

-- ================================================================ the runs

/-- What the frames of a connection say, in order. -/
def said (worker : Worker) (actions : List (PipelineAction Worker)) :
    List NormalizedOrderbook :=
  actions.flatMap fun action =>
    match action with
    | .frame worker' orders normalizedAt receivedAt msg =>
        if worker' = worker then
          normalizeFrame J orders normalizedAt receivedAt msg
        else []
    | _ => []

/-- The service's clock reads an `i64`. -/
def InTime : PipelineAction Worker → Prop
  | .process now _ => -2 ^ 63 ≤ now ∧ now < 2 ^ 63
  | _ => True

/-- The ids of what a frame says can be published under. -/
def Legal : PipelineAction Worker → Prop
  | .frame _ orders normalizedAt receivedAt msg =>
      ∀ out ∈ normalizeFrame J orders normalizedAt receivedAt msg,
        out.Legal
  | _ => True

instance (action : PipelineAction Worker) : Decidable (Legal J action) :=
  match action with
  | .frame .. => inferInstanceAs (Decidable (∀ out ∈ _, _))
  | .publish _ => isTrue trivial
  | .publishFails _ => isTrue trivial
  | .process .. => isTrue trivial
  | .cache => isTrue trivial
  | .route => isTrue trivial
  | .socket _ => isTrue trivial

/-- No publication fails. -/
def Sends : PipelineAction Worker → Prop
  | .publishFails _ => False
  | .process _ sent => sent = true
  | _ => True

end Pipeline

end Wup
