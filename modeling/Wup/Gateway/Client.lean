/-
Client state and registry (`client.rs`).

The registry files every subscription twice: in the main index, and in
one of two others by whether the pattern contains a wildcard character.
Removing a client or a subscription takes it out of the same places; keys
of the indexes stay behind with empty sets.

A client's channel holds the messages not yet written to its socket,
oldest first; a send to a full channel drops the message. The lock of the
wildcard list is never poisoned: nothing panics while holding it.
-/
import Wup.Gateway.Protocol
import Wup.Gateway.Subject

namespace Wup.Gateway

-- ============================================================== one client

/-- Unique client identifier, a UUID. -/
abbrev ClientId := BitVec 128

/-- Default buffer size for client message channels. -/
def clientChannelBufferSize : Nat := 1000

/-- WebSocket message: a text or a keepalive. -/
inductive Message
  | text (msg : ServerMessage)
  | ping
  | pong
deriving DecidableEq

/-- State for a single connected client. -/
structure ClientState where
  id : ClientId
  /-- Messages waiting for the client's WebSocket. -/
  tx : List Message
  subscriptions : HashSet String
  connectedAt : Int
  lastPing : Int
deriving DecidableEq

/-- A UUID as text: hexadecimal digits in groups. -/
def ClientId.text (clientId : ClientId) : String :=
  let digits := clientId.toHex.toList
  let group (start len : Nat) := String.ofList ((digits.drop start).take len)
  String.intercalate "-"
    [group 0 8, group 8 4, group 12 4, group 16 4, group 20 12]

/-- Gateway errors of the client operations and of the snapshot
requests. -/
inductive GatewayError
  | http (error : String)
  | clientNotFound (clientId : String)
  | invalidSubject (text : String)
  | channelSend
deriving DecidableEq, Repr

/-- The text of an error. -/
def GatewayError.text : GatewayError → String
  | .http error => "HTTP error: " ++ error
  | .clientNotFound clientId => "Client not found: " ++ clientId
  | .invalidSubject text => "Invalid subscription subject: " ++ text
  | .channelSend => "Channel send error"

namespace ClientState

/-- Create a new client state. -/
def new (id : ClientId) (now : Int) : ClientState :=
  ⟨id, [], .empty, now, now⟩

/-- There is room in the client's channel. -/
def HasRoom (client : ClientState) : Prop :=
  client.tx.length < clientChannelBufferSize

instance (client : ClientState) : Decidable client.HasRoom :=
  inferInstanceAs (Decidable (_ < _))

/-- Try to send a raw message: the client afterwards, and whether the
message was sent. -/
def trySendRaw (client : ClientState) (msg : Message) :
    ClientState × Bool :=
  if client.HasRoom then
    ({ client with tx := client.tx ++ [msg] }, true)
  else (client, false)

/-- Update the last ping timestamp. -/
def updatePing (client : ClientState) (now : Int) : ClientState :=
  { client with lastPing := now }

end ClientState

-- ============================================================ the registry

/-- Registry of connected clients. -/
structure ClientRegistry where
  clients : HashMap ClientId ClientState
  /-- All subscription patterns. -/
  subscriptions : HashMap String (HashSet ClientId)
  /-- Patterns without wildcards. -/
  exactSubscriptions : HashMap String (HashSet ClientId)
  /-- Patterns with wildcards, in order of their first subscription. -/
  wildcardPatterns : List (String × HashSet ClientId)

/-- Add a client to the first entry of a pattern, or a new entry. -/
def addToPattern (pattern : String) (clientId : ClientId) :
    List (String × HashSet ClientId) → List (String × HashSet ClientId)
  | [] => [(pattern, HashSet.empty.insert clientId)]
  | e :: patterns =>
      if e.1 = pattern then (e.1, e.2.insert clientId) :: patterns
      else e :: addToPattern pattern clientId patterns

/-- Remove a client from the first entry of a pattern. -/
def removeFromPattern (pattern : String) (clientId : ClientId) :
    List (String × HashSet ClientId) → List (String × HashSet ClientId)
  | [] => []
  | e :: patterns =>
      if e.1 = pattern then (e.1, e.2.remove clientId) :: patterns
      else e :: removeFromPattern pattern clientId patterns

namespace ClientRegistry

/-- Create a new empty registry. -/
def new : ClientRegistry := ⟨∅, ∅, ∅, []⟩

/-- Register a new client. -/
def register (registry : ClientRegistry) (client : ClientState) :
    ClientRegistry :=
  { registry with clients := registry.clients.insert client.id client }

/-- Change the shared state of a client. -/
def modifyClient (registry : ClientRegistry) (clientId : ClientId)
    (f : ClientState → ClientState) : ClientRegistry :=
  match registry.clients.lookup clientId with
  | some client =>
      { registry with
        clients := registry.clients.insert clientId (f client) }
  | none => registry

/-- Try to send a message to a client: the registry afterwards, and
whether the message was sent. -/
def trySendRaw (registry : ClientRegistry) (clientId : ClientId)
    (msg : Message) : ClientRegistry × Bool :=
  (registry.modifyClient clientId fun client => (client.trySendRaw msg).1,
    ((registry.clients.lookup clientId).map fun client =>
      (client.trySendRaw msg).2).getD false)

/-- Send a message to a client. -/
def send (registry : ClientRegistry) (clientId : ClientId)
    (msg : ServerMessage) : ClientRegistry × Except GatewayError Unit :=
  let r := registry.trySendRaw clientId (.text msg)
  (r.1, if r.2 then .ok () else .error .channelSend)

/-- Clean up one subscription of a client that leaves. -/
def dropSubject (clientId : ClientId) (registry : ClientRegistry)
    (subject : String) : ClientRegistry :=
  let registry := { registry with
    subscriptions := registry.subscriptions.unfile subject clientId }
  if isWildcardPattern subject then
    { registry with
      wildcardPatterns := registry.wildcardPatterns.map fun e =>
        (e.1, e.2.remove clientId) }
  else
    { registry with
      exactSubscriptions :=
        registry.exactSubscriptions.unfile subject clientId }

/-- Unregister a client and clean up its subscriptions. -/
def unregister (registry : ClientRegistry) (clientId : ClientId) :
    ClientRegistry :=
  match registry.clients.lookup clientId with
  | some client =>
      client.subscriptions.items.foldl (dropSubject clientId)
        { registry with clients := registry.clients.erase clientId }
  | none => registry

/-- Add one subscription of a client. -/
def subscribeTo (clientId : ClientId) (registry : ClientRegistry)
    (subject : String) : ClientRegistry :=
  let registry := registry.modifyClient clientId fun client =>
    { client with subscriptions := client.subscriptions.insert subject }
  let registry := { registry with
    subscriptions := registry.subscriptions.file subject clientId }
  if isWildcardPattern subject then
    { registry with
      wildcardPatterns :=
        addToPattern subject clientId registry.wildcardPatterns }
  else
    { registry with
      exactSubscriptions :=
        registry.exactSubscriptions.file subject clientId }

/-- Add subscriptions for a client. -/
def subscribe (registry : ClientRegistry) (clientId : ClientId)
    (subjects : List String) : Except GatewayError ClientRegistry :=
  match registry.clients.lookup clientId with
  | none => .error (.clientNotFound (ClientId.text clientId))
  | some _ => .ok (subjects.foldl (subscribeTo clientId) registry)

/-- Remove one subscription of a client. -/
def unsubscribeFrom (clientId : ClientId) (registry : ClientRegistry)
    (subject : String) : ClientRegistry :=
  let registry := registry.modifyClient clientId fun client =>
    { client with subscriptions := client.subscriptions.remove subject }
  let registry := { registry with
    subscriptions := registry.subscriptions.unfile subject clientId }
  if isWildcardPattern subject then
    { registry with
      wildcardPatterns :=
        removeFromPattern subject clientId registry.wildcardPatterns }
  else
    { registry with
      exactSubscriptions :=
        registry.exactSubscriptions.unfile subject clientId }

/-- Remove subscriptions for a client. -/
def unsubscribe (registry : ClientRegistry) (clientId : ClientId)
    (subjects : List String) : Except GatewayError ClientRegistry :=
  match registry.clients.lookup clientId with
  | none => .error (.clientNotFound (ClientId.text clientId))
  | some _ => .ok (subjects.foldl (unsubscribeFrom clientId) registry)

/-- Get all clients subscribed to a specific subject. -/
def getSubscribersExact (registry : ClientRegistry) (subject : String) :
    List ClientState :=
  match registry.subscriptions.lookup subject with
  | some clientIds =>
      clientIds.items.filterMap fun id => registry.clients.lookup id
  | none => []

/-- The ids collected for a subject: the exact index, then every wildcard
pattern that matches. -/
def matchedClients (registry : ClientRegistry) (subject : String) :
    HashSet ClientId :=
  let exact := match registry.exactSubscriptions.lookup subject with
    | some clientIds => HashSet.empty.extend clientIds.items
    | none => .empty
  let subjectParts := splitDots subject
  registry.wildcardPatterns.foldl (fun matched e =>
    if matchesSubject e.1 subjectParts then matched.extend e.2.items
    else matched) exact

/-- Get all clients subscribed to patterns matching a subject. -/
def getMatchingSubscribers (registry : ClientRegistry) (subject : String) :
    List ClientState :=
  (registry.matchedClients subject).items.filterMap fun id =>
    registry.clients.lookup id

/-- Get the total number of active subscriptions. -/
def subscriptionCount (registry : ClientRegistry) : Nat :=
  registry.subscriptions.entries.length

end ClientRegistry

end Wup.Gateway
