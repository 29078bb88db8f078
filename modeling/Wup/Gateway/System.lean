/-
The orderbook service, NATS, the gateway and its clients as one system.

The parties move one at a time. The orderbook service processes a message
and publishes its event; NATS delivers events in the order they were
published, and the gateway fans each one out; a client connects and
subscribes to one asset; its snapshot request is answered from the store
at some later step, and the answer reaches the gateway at a later one
still; a client takes the next message off its channel. Requests and
answers arrive as they were sent.

A client keeps one aggregated book per asset: a snapshot replaces it, a
price change overwrites the levels it mentions.

Sums that leave the range of a decimal panic. A panic in the orderbook
API ends the request, and the client gets no snapshot; one in the
publication of a change ends the service that processes the messages,
whose store then stays as it is.

# History

`published`, the number an event carries in the queue and the `readAt` of
an answer record the order of publication, `missed` whose snapshot came to
nothing. What the parties do depends on none of them; they are there to say
which of two things came first (`Overtakes`).
-/
import Wup.Gateway.WsServer
import Wup.Orderbook.OrPanic
import Wup.Orderbook.Aggregated
import Wup.Orderbook.Proofs.Family
import Wup.Lib.Runs

namespace Wup.Gateway

open ChangeFeed

variable (D : RustDecimal)

-- ============================================================== the client

/-- An aggregated book as a client keeps it. -/
abbrev AggBook := LevelKey → Option AggLevel

/-- What a reported level says. -/
def readPriceLevel (side : OrderSide) (level : AggregatedPriceLevel) :
    Option (LevelKey × Option AggLevel) :=
  (D.num level.price).map fun p =>
    ((side, p), readLevel D level.totalSize level.platforms)

/-- What a snapshot says. -/
def OrderbookData.readings (data : OrderbookData) :
    List (LevelKey × Option AggLevel) :=
  data.bids.filterMap (readPriceLevel D .buy)
    ++ data.asks.filterMap (readPriceLevel D .sell)

/-- The book a snapshot replaces a client's with. -/
def OrderbookData.book (data : OrderbookData) : AggBook :=
  patch (fun _ => none) (data.readings D)

/-- A client's books, by market and asset. -/
abbrev Books := String × String → AggBook

/-- A client receives a message. -/
def Books.receive (books : Books) : Message → Books
  | .text (.snapshot data) =>
      Function.update books (data.marketId, data.assetId) (data.book D)
  | .text (.priceChange data) =>
      Function.update books (data.marketId, data.assetId)
        (patch (books (data.marketId, data.assetId))
          (data.changes.filterMap (readChange D)))
  | _ => books

-- ============================================================== the system

/-- The orderbook service's answer to a snapshot request. -/
structure Answer where
  /-- The book, unless there is none. -/
  response : Option OrderbookHttpResponse
  /-- History: how many events had been published. -/
  readAt : Nat
deriving DecidableEq

/-- A snapshot request of a connection that handles a subscription. -/
structure Fetch where
  marketId : String
  assetId : String
  answer : Option Answer
deriving DecidableEq

/-- The state of all parties. -/
structure System where
  store : OrderbookStore
  /-- History: how many events were published. -/
  published : Nat
  /-- Events on their way to the gateway, each with its number. -/
  nats : List (Nat × AggregatedPriceChangeEvent)
  registry : ClientRegistry
  /-- The snapshot request a connection waits for. -/
  fetches : HashMap ClientId Fetch
  books : ClientId → Books
  /-- The asset at whose change the service panicked, if it did. -/
  stopped : Option (String × String)
  /-- History: the assets of a client whose last snapshot was overtaken,
  or never came because the book could not be read. -/
  missed : ClientId → String × String → Bool

/-- A step of one of the parties. -/
inductive Action
  | process (msg : NormalizedOrderbook) (now : Int)
  | deliver
  | connect (clientId : ClientId) (now : Int)
  | subscribe (clientId : ClientId) (now : Int) (marketId assetId : String)
  | answer (clientId : ClientId)
  | arrive (clientId : ClientId) (now : Int)
  | receive (clientId : ClientId)

/-- `{market}.{asset}` names one asset and no other. -/
def ExactSubject (marketId assetId : String) : Prop :=
  snapshotTarget (buildSubject marketId assetId)
    = .ok (.asset marketId assetId)

instance (marketId assetId : String) :
    Decidable (ExactSubject marketId assetId) :=
  match h : snapshotTarget (buildSubject marketId assetId) with
  | .ok target =>
      decidable_of_iff (target = .asset marketId assetId)
        (by simp [ExactSubject, h])
  | .error _ => isFalse (by simp [ExactSubject, h])

namespace System

variable (service : OrderbookService)

/-- Before anybody connected, with a store that has processed some
messages already. -/
def start (history : List NormalizedOrderbook) : System where
  store := runStore D history
  published := 0
  nats := []
  registry := .new
  fetches := ∅
  books := fun _ _ _ => none
  stopped := none
  missed := fun _ _ => false

/-- An event overtakes the snapshot a client waits for: it is about the
same asset and was published after the snapshot was read. -/
def Overtakes (s : System) (e : Nat × AggregatedPriceChangeEvent)
    (clientId : ClientId) (asset : String × String) : Prop :=
  (e.2.marketId, e.2.assetId) = asset
    ∧ ∃ fetch ∈ s.fetches.lookup clientId,
        (fetch.marketId, fetch.assetId) = asset
        ∧ ∃ answer ∈ fetch.answer,
            answer.response.isSome = true ∧ answer.readAt ≤ e.1

instance (s : System) (e : Nat × AggregatedPriceChangeEvent)
    (clientId : ClientId) (asset : String × String) :
    Decidable (s.Overtakes e clientId asset) :=
  inferInstanceAs (Decidable (_ ∧ ∃ fetch ∈ _, _ ∧ ∃ answer ∈ _, _))

/-- Take a step; `none` where the party cannot take it now. -/
def step (s : System) : Action → Option System
  | .process msg now =>
      if s.stopped.isSome then none
      else
        let r := OrPanic.processMessage D service s.store msg now
        match r.2 with
        | .ok (some (_, event)) =>
            some { s with
              store := r.1
              published := s.published + 1
              nats := s.nats ++ [(s.published, event)] }
        | .ok none => some { s with store := r.1 }
        -- applied, and never published
        | .error _ => some { s with store := r.1, stopped := some msg.key }
  | .deliver =>
      match s.nats with
      | [] => none
      | e :: nats =>
          some { s with
            nats := nats
            registry := handleChange s.registry e.2
            missed := fun clientId asset =>
              s.missed clientId asset || s.Overtakes e clientId asset }
  | .connect clientId now =>
      if (s.registry.clients.lookup clientId).isSome then none
      else some { s with
        registry := s.registry.register (.new clientId now) }
  | .subscribe clientId now marketId assetId =>
      -- a connection that waits for a snapshot takes no message
      if (s.registry.clients.lookup clientId).isSome
          ∧ (s.fetches.lookup clientId).isNone
          ∧ ExactSubject marketId assetId then
        let r := handleMessage s.registry clientId now
          (.subscribe [buildSubject marketId assetId])
        some { s with
          registry := r.1
          fetches :=
            if r.2 = [] then s.fetches
            else s.fetches.insert clientId ⟨marketId, assetId, none⟩ }
      else none
  | .answer clientId =>
      match s.fetches.lookup clientId with
      | some ⟨marketId, assetId, none⟩ =>
          -- the request of a handler that panics fails
          let read := OrPanic.get D s.store marketId assetId none
          let response := read.toOption.join.map
            OrderbookHttpResponse.ofResponse
          some { s with
            fetches := s.fetches.insert clientId
              ⟨marketId, assetId, some ⟨response, s.published⟩⟩
            missed := Function.update s.missed clientId
              (Function.update (s.missed clientId) (marketId, assetId)
                (!read.isOk)) }
      | _ => none
  | .arrive clientId now =>
      match s.fetches.lookup clientId with
      | some ⟨_, _, some answer⟩ =>
          some { s with
            registry :=
              (sendSnapshot s.registry clientId answer.response now).1
            fetches := s.fetches.erase clientId }
      | _ => none
  | .receive clientId =>
      match (s.registry.clients.lookup clientId).map (·.tx) with
      | some (msg :: _) =>
          some { s with
            registry := s.registry.modifyClient clientId fun client =>
              { client with tx := client.tx.tail }
            books := Function.update s.books clientId
              ((s.books clientId).receive D msg) }
      | _ => none

-- ================================================================ the runs

/-- No client buffer overflows in a step: whoever is sent a message has
room for it. -/
def Fits (s : System) : Action → Prop
  | .deliver => ∀ e ∈ s.nats.head?, ∀ client ∈
      s.registry.getMatchingSubscribers
        (buildSubject e.2.marketId e.2.assetId), client.HasRoom
  | .subscribe clientId _ _ _ =>
      ∀ client ∈ s.registry.clients.lookup clientId, client.HasRoom
  | .arrive clientId _ =>
      ∀ fetch ∈ s.fetches.lookup clientId, ∀ answer ∈ fetch.answer,
        answer.response.isSome = true →
        ∀ client ∈ s.registry.clients.lookup clientId, client.HasRoom
  | _ => True

/-- Messages of the orderbook service are deltas. -/
def IsDelta : Action → Prop
  | .process msg _ => msg.messageType = .delta
  | _ => True

/-- The steps of the runs in which no buffer overflows. -/
def Orderly (s : System) (action : Action) : Prop :=
  IsDelta action ∧ s.Fits action

instance (s : System) (action : Action) : Decidable (s.Fits action) :=
  match action with
  | .deliver => inferInstanceAs (Decidable (∀ e ∈ _, ∀ client ∈ _, _))
  | .subscribe .. => inferInstanceAs (Decidable (∀ client ∈ _, _))
  | .arrive .. => inferInstanceAs (Decidable (∀ fetch ∈ _, _))
  | .process .. => isTrue trivial
  | .connect .. => isTrue trivial
  | .answer .. => isTrue trivial
  | .receive .. => isTrue trivial

instance (action : Action) : Decidable (IsDelta action) :=
  match action with
  | .process .. => inferInstanceAs (Decidable (_ = _))
  | .deliver => isTrue trivial
  | .connect .. => isTrue trivial
  | .subscribe .. => isTrue trivial
  | .answer .. => isTrue trivial
  | .arrive .. => isTrue trivial
  | .receive .. => isTrue trivial

instance (s : System) (action : Action) : Decidable (s.Orderly action) :=
  inferInstanceAs (Decidable (_ ∧ _))

/-- What a client may count on for an asset: the service did not stop at
it, and the client's last snapshot of it was neither overtaken nor
impossible to read. -/
def Promised (s : System) (clientId : ClientId) (marketId assetId : String) :
    Prop :=
  s.stopped ≠ some (marketId, assetId)
    ∧ s.missed clientId (marketId, assetId) = false

instance (s : System) (clientId : ClientId) (marketId assetId : String) :
    Decidable (s.Promised clientId marketId assetId) :=
  inferInstanceAs (Decidable (_ ∧ _))

/-- Nothing is in flight to a client. -/
def Quiet (s : System) (clientId : ClientId) : Prop :=
  s.nats = [] ∧ s.fetches.lookup clientId = none
    ∧ ∀ client ∈ s.registry.clients.lookup clientId, client.tx = []

instance (s : System) (clientId : ClientId) :
    Decidable (s.Quiet clientId) :=
  inferInstanceAs (Decidable (_ ∧ _ ∧ ∀ client ∈ _, _))

end System

end Wup.Gateway
