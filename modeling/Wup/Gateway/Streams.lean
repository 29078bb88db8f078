/-
The tasks around the clients' channels (`handle_socket`), one step at a
time.

Any number of connections are open. Each has a task that handles what the
client sends, and ticks a keepalive; a second task takes the messages off
the client's channel and writes them to the socket. The change router fans
events out to all of them. A snapshot reaches the channel at some step
after the subscription it belongs to, whatever the orderbook service
answered; a refused message is reported at some step after it was
refused. No task waits for room in a channel: a send to a full one is
dropped.

A keepalive that finds the channel full ends the connection.
-/
import Wup.Gateway.WsServer
import Wup.Lib.Runs

namespace Wup.Gateway

/-- A step of one of the tasks. -/
inductive SocketAction
  /-- A connection is accepted. -/
  | connect (clientId : ClientId) (now : Int)
  /-- A message of the client is handled, but for what follows it. -/
  | message (clientId : ClientId) (now : Int) (msg : ClientMessage)
  /-- A WebSocket ping of the client is answered. -/
  | pong (clientId : ClientId) (now : Int)
  /-- A refused message is reported. -/
  | report (clientId : ClientId) (error : GatewayError)
  /-- A fetched orderbook is sent. -/
  | snapshot (clientId : ClientId) (response : OrderbookHttpResponse)
      (now : Int)
  /-- The router fans out an event. -/
  | route (event : AggregatedPriceChangeEvent)
  /-- The ping interval ticks. -/
  | keepalive (clientId : ClientId)
  /-- The writer takes the next message off the channel. -/
  | take (clientId : ClientId)
  /-- The socket closes. -/
  | close (clientId : ClientId)

namespace ClientRegistry

/-- The messages waiting for a registered client. -/
def waiting (registry : ClientRegistry) (clientId : ClientId) :
    Option (List Message) :=
  (registry.clients.lookup clientId).map (·.tx)

/-- A connection's task is there as long as the client is registered. -/
def Connected (registry : ClientRegistry) (clientId : ClientId) : Prop :=
  (registry.clients.lookup clientId).isSome = true

instance (registry : ClientRegistry) (clientId : ClientId) :
    Decidable (registry.Connected clientId) :=
  inferInstanceAs (Decidable (_ = _))

/-- Take a step; `none` where no task can take it now. -/
def socketStep (registry : ClientRegistry) :
    SocketAction → Option ClientRegistry
  | .connect clientId now =>
      if registry.Connected clientId then none
      else some (registry.register (.new clientId now))
  | .message clientId now msg =>
      if registry.Connected clientId then
        some (handleClientMessage registry clientId now msg).1
      else none
  | .pong clientId now =>
      if registry.Connected clientId then
        some ((registry.modifyClient clientId fun client =>
          client.updatePing now).trySendRaw clientId .pong).1
      else none
  | .report clientId error =>
      if registry.Connected clientId then
        some (registry.send clientId
          (.error error.text "PROCESSING_ERROR")).1
      else none
  | .snapshot clientId response now =>
      if registry.Connected clientId then
        some (sendSnapshot registry clientId (some response) now).1
      else none
  | .route event => some (handleChange registry event)
  | .keepalive clientId =>
      if registry.Connected clientId then
        let r := registry.trySendRaw clientId .ping
        if r.2 then some r.1 else some (r.1.unregister clientId)
      else none
  | .take clientId =>
      match registry.waiting clientId with
      | some (_ :: _) =>
          some (registry.modifyClient clientId fun client =>
            { client with tx := client.tx.tail })
      | _ => none
  | .close clientId =>
      if registry.Connected clientId then
        some (registry.unregister clientId)
      else none

-- ============================================================== the stream

/-- The router drops an event for a client: the client is matched, and its
channel is full. -/
def DropsChange (registry : ClientRegistry)
    (event : AggregatedPriceChangeEvent) (id : ClientId) : Prop :=
  ∃ client, registry.clients.lookup id = some client
    ∧ client ∈ registry.getMatchingSubscribers
        (buildSubject event.marketId event.assetId)
    ∧ ¬ client.HasRoom

/-- A message is put into a client's channel. -/
def Enqueues (before after : ClientRegistry) (id : ClientId)
    (msg : Message) : Prop :=
  ∃ tx, before.waiting id = some tx ∧ after.waiting id = some (tx ++ [msg])

/-- The step takes a message off the client's channel. -/
def Takes (id : ClientId) (action : SocketAction) : Prop :=
  action = .take id

/-- The step unregisters the client. -/
def Unregisters (id : ClientId) (registry : ClientRegistry)
    (action : SocketAction) : Prop :=
  ∃ after, registry.socketStep action = some after
    ∧ after.waiting id = none

/-- The step puts a snapshot of the asset into the client's channel. -/
def SendsSnapshot (marketId assetId : String) (id : ClientId)
    (registry : ClientRegistry) (action : SocketAction) : Prop :=
  ∃ after data, registry.socketStep action = some after
    ∧ Enqueues registry after id (.text (.snapshot data))
    ∧ data.marketId = marketId ∧ data.assetId = assetId

end ClientRegistry

end Wup.Gateway
