/-
The WebSocket protocol as JSON text (`protocol.rs`), and what a connection
does with a frame (`ws_server.rs`).

Both directions name a message's kind in a member `type`. Of what a client
sends, everything but that member is kept until the kind is known; an
array has the kind in front. A kind without fields takes any object, and
no further element.

# Conversations

The client on the other end of a connection keeps the subjects it was told
it is subscribed to (`heed`). A conversation has the tasks of the gateway
and, for each client, what it was told by the messages that reached it.
-/
import Wup.Gateway.Streams
import Wup.Wire.Schema

namespace Wup.Gateway

open Json
open ExternalServices (structFields readString readVec optionValue)

variable (J : SerdeJson)

-- ======================================================== client to server

/-- The rest of a subscription. -/
def readSubjects (v : Value) : Option (List String) := do
  let field ← structFields ["subjects"] v
  (field "subjects").bind (readVec readString)

def ClientMessage.ofValue (v : Value) : Option ClientMessage :=
  (readTagged "type" v).bind fun e =>
    if e.1 = "subscribe" then (readSubjects e.2).map .subscribe
    else if e.1 = "unsubscribe" then (readSubjects e.2).map .unsubscribe
    else if e.1 = "ping" then (readUnit e.2).map fun _ => .ping
    else none

/-- `from_str`, and `from_slice` of a binary frame. -/
def ClientMessage.fromStr (text : String) : Option ClientMessage :=
  (J.fromStr text).bind ClientMessage.ofValue

-- ======================================================== server to client

/-- The fields of a snapshot. -/
def OrderbookData.fields (d : OrderbookData) :
    List (String × Option Value) :=
  [("market_id", some (.str d.marketId)),
   ("asset_id", some (.str d.assetId)),
   ("platforms", some (vecValue .str d.platforms)),
   ("bids", some (vecValue AggregatedPriceLevel.toValue d.bids)),
   ("asks", some (vecValue AggregatedPriceLevel.toValue d.asks)),
   ("system_best_bid", d.systemBestBid.map .str),
   ("system_best_ask", d.systemBestAsk.map .str),
   ("timestamp_us", some (.num (.int d.timestampUs)))]

/-- The fields of a price change. -/
def PriceChangeData.fields (d : PriceChangeData) :
    List (String × Option Value) :=
  [("market_id", some (.str d.marketId)),
   ("asset_id", some (.str d.assetId)),
   ("changes", some (vecValue AggregatedPriceLevelChange.toValue d.changes)),
   ("timestamp_us", some (.num (.int d.timestampUs)))]

/-- The kind of a message. -/
def ServerMessage.kind : ServerMessage → String
  | .snapshot _ => "snapshot"
  | .priceChange _ => "price_change"
  | .pong => "pong"
  | .subscribed _ => "subscribed"
  | .unsubscribed _ => "unsubscribed"
  | .error _ _ => "error"

/-- What follows the kind. -/
def ServerMessage.fields : ServerMessage → List (String × Option Value)
  | .snapshot data => data.fields
  | .priceChange data => data.fields
  | .pong => []
  | .subscribed subjects => [("subjects", some (vecValue .str subjects))]
  | .unsubscribed subjects => [("subjects", some (vecValue .str subjects))]
  | .error message code =>
      [("message", some (.str message)), ("code", some (.str code))]

def ServerMessage.toValue (msg : ServerMessage) : Value :=
  .ofFields (("type", some (.str msg.kind)) :: msg.fields)

/-- `to_string`. -/
def ServerMessage.toString (msg : ServerMessage) : String :=
  J.toString msg.toValue

-- ================================================================== frames

/-- A frame a client sends. -/
inductive Frame
  | text (data : String)
  | binary (data : String)
  | ping
  | pong
  | close
deriving DecidableEq, Repr

/-- `handle_message`, but for a refusal's report: what the registry is
afterwards. A frame that cannot be read changes nothing. -/
def handleFrame (registry : ClientRegistry) (clientId : ClientId)
    (now : Int) : Frame → ClientRegistry
  | .text data | .binary data =>
      match ClientMessage.fromStr J data with
      | some msg => (handleClientMessage registry clientId now msg).1
      | none => registry
  | .ping =>
      ((registry.modifyClient clientId fun client =>
        client.updatePing now).trySendRaw clientId .pong).1
  | .pong =>
      registry.modifyClient clientId fun client => client.updatePing now
  | .close => registry

-- =========================================================== conversations

/-- A registered client hears back that its subscriptions have changed. -/
def ClientMessage.isConfirmed : ClientMessage → Bool
  | .subscribe subjects => (subjects.findSome? validatePattern).isNone
  | .unsubscribe _ => true
  | .ping => false

/-- A client follows what it is told of its subscriptions. -/
def heed (told : HashSet String) : Message → HashSet String
  | .text (.subscribed subjects) => told.extend subjects
  | .text (.unsubscribed subjects) => subjects.foldl HashSet.remove told
  | _ => told

/-- The gateway's side, and what each client was told. -/
structure Conversation where
  registry : ClientRegistry
  told : ClientId → HashSet String

/-- A step of one of the tasks. -/
inductive ConversationAction
  /-- A client's frame is handled. -/
  | frame (clientId : ClientId) (now : Int) (frame : Frame)
  /-- A refused frame is reported, with whatever text. -/
  | report (clientId : ClientId) (text : String)
  /-- A task of the gateway takes another step. -/
  | socket (action : SocketAction)

namespace Conversation

/-- Before anybody connected. -/
def start : Conversation := ⟨.new, fun _ => .empty⟩

/-- What the clients know after a step of the gateway's tasks: a new
client nothing, and one that gets a message what it says. -/
def follow (c : Conversation) : SocketAction → ClientId → HashSet String
  | .connect clientId _ => Function.update c.told clientId .empty
  | .take clientId =>
      match c.registry.waiting clientId with
      | some (msg :: _) =>
          Function.update c.told clientId (heed (c.told clientId) msg)
      | _ => c.told
  | _ => c.told

/-- Take a step; `none` where no task can take it now. -/
def step (c : Conversation) : ConversationAction → Option Conversation
  | .frame clientId now frame =>
      if c.registry.Connected clientId then
        some { c with
          registry := handleFrame J c.registry clientId now frame }
      else none
  | .report clientId text =>
      if c.registry.Connected clientId then
        let r := c.registry.send clientId (.error text "PROCESSING_ERROR")
        some { c with registry := r.1 }
      else none
  | .socket action =>
      (c.registry.socketStep action).map fun registry =>
        ⟨registry, c.follow action⟩

/-- The message a step handles for a client, if any. -/
def handled (id : ClientId) : ConversationAction → Option ClientMessage
  | .frame clientId _ (.text data) | .frame clientId _ (.binary data) =>
      if clientId = id then ClientMessage.fromStr J data else none
  | .socket (.message clientId _ msg) =>
      if clientId = id then some msg else none
  | _ => none

/-- No confirmation for the client is dropped: there is room in its
channel when a message of it is handled that is confirmed. -/
def Confirms (id : ClientId) (c : Conversation)
    (action : ConversationAction) : Prop :=
  (handled J id action).any ClientMessage.isConfirmed = true →
    ∀ client ∈ c.registry.clients.lookup id, client.HasRoom

instance (id : ClientId) (c : Conversation) (action : ConversationAction) :
    Decidable (Confirms J id c action) :=
  inferInstanceAs (Decidable (_ → ∀ client ∈ _, _))

end Conversation

end Wup.Gateway
