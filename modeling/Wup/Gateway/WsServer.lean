/-
The WebSocket server (`ws_server.rs`): what a client message does.

A connection handles one message at a time. Handling a subscription ends
with one snapshot fetch per subject, in the order of the subjects; until
the last one is done the connection takes no further message.
-/
import Wup.Gateway.Router

namespace Wup.Gateway

/-- Handle a parsed client message: the registry afterwards, and the
subjects to fetch snapshots for, or why the message was refused. -/
def handleClientMessage (registry : ClientRegistry) (clientId : ClientId)
    (now : Int) : ClientMessage →
    ClientRegistry × Except GatewayError (List String)
  | .subscribe subjects =>
      match subjects.findSome? validatePattern with
      | some error => (registry, .error (.invalidSubject error))
      | none =>
          match registry.subscribe clientId subjects with
          | .error e => (registry, .error e)
          | .ok registry =>
              let r := registry.send clientId (.subscribed subjects)
              (r.1, r.2.map fun _ => subjects)
  | .unsubscribe subjects =>
      match registry.unsubscribe clientId subjects with
      | .error e => (registry, .error e)
      | .ok registry =>
          let r := registry.send clientId (.unsubscribed subjects)
          (r.1, r.2.map fun _ => [])
  | .ping =>
      let registry := registry.modifyClient clientId fun client =>
        client.updatePing now
      let r := registry.send clientId .pong
      (r.1, r.2.map fun _ => [])

/-- Handle a client message and report a refusal to the client. -/
def handleMessage (registry : ClientRegistry) (clientId : ClientId)
    (now : Int) (msg : ClientMessage) : ClientRegistry × List String :=
  match handleClientMessage registry clientId now msg with
  | (registry, .ok subjects) => (registry, subjects)
  | (registry, .error e) =>
      ((registry.send clientId (.error e.text "PROCESSING_ERROR")).1, [])

end Wup.Gateway
