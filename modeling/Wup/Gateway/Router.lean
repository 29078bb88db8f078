/-
The change router (`router.rs`): published events out to the subscribed
clients, and a snapshot to a client that subscribes.

An event goes to every client whose patterns match its subject at that
moment; its ids are read off the payload first, and the rest only when
somebody is subscribed, which makes no difference to what is sent. A
snapshot is fetched over HTTP: what to ask for is read off the subject
(`snapshotTarget`), and what came back is sent to the client
(`sendSnapshot`, or `sendMarketSnapshots` for all assets of a market).
`sendSnapshots` is both steps with the store behind the API answering at
once; a read that panics there answers nothing, and the request fails.
Metrics and log lines are not modelled.
-/
import Wup.Gateway.Client
import Wup.Orderbook.OrPanic

namespace Wup.Gateway

/-- Handle a single published event: send it to all matching clients, and
drop it for those whose channel is full. -/
def handleChange (registry : ClientRegistry)
    (event : AggregatedPriceChangeEvent) : ClientRegistry :=
  let clients := registry.getMatchingSubscribers
    (buildSubject event.marketId event.assetId)
  clients.foldl (fun registry client =>
    (registry.trySendRaw client.id
      (.text (.priceChange (.ofEvent event)))).1) registry

/-- What a subscription gets a snapshot of. -/
inductive SnapshotTarget
  /-- All assets of a market. -/
  | market (marketId : String)
  /-- Nothing, for the other wildcard patterns. -/
  | skip
  | asset (marketId assetId : String)
deriving DecidableEq, Repr

/-- Parse a subject for the snapshot to fetch. -/
def snapshotTarget (subject : String) :
    Except GatewayError SnapshotTarget :=
  let parts := splitDots subject
  if parts.length = 2 ∧ (parts[1]? = some "*" ∨ parts[1]? = some ">") then
    .ok (.market (parts.headD ""))
  else if isWildcardPattern subject then .ok .skip
  else match parts with
    | marketId :: assetId :: _ => .ok (.asset marketId assetId)
    | _ => .error (.invalidSubject
        ("Subject must have at least 2 parts: " ++ subject))

/-- Send the fetched orderbook to the client; one that was not found is
skipped. -/
def sendSnapshot (registry : ClientRegistry) (clientId : ClientId)
    (response : Option OrderbookHttpResponse) (now : Int) :
    ClientRegistry × Except GatewayError Unit :=
  match response with
  | none => (registry, .ok ())
  | some orderbook =>
      registry.send clientId (.snapshot (orderbook.toOrderbookData now))

/-- Send a snapshot of each asset, up to the first that is refused. -/
def sendAssets (clientId : ClientId) (now : Int) :
    ClientRegistry → List OrderbookHttpResponse →
    ClientRegistry × Except GatewayError Unit
  | registry, [] => (registry, .ok ())
  | registry, orderbook :: assets =>
      match registry.send clientId
          (.snapshot (orderbook.toOrderbookData now)) with
      | (registry, .ok ()) => sendAssets clientId now registry assets
      | (registry, .error e) => (registry, .error e)

/-- Send snapshots for all assets in a market; a market that was not
found is skipped. -/
def sendMarketSnapshots (registry : ClientRegistry) (clientId : ClientId)
    (response : Option MarketOrderbooksHttpResponse) (now : Int) :
    ClientRegistry × Except GatewayError Unit :=
  match response with
  | none => (registry, .ok ())
  | some marketResponse =>
      sendAssets clientId now registry marketResponse.assets

/-- Send the initial snapshots of a subscription, as the store has them;
`closed` is the error of a request that is not answered. -/
def sendSnapshots (D : RustDecimal) (store : OrderbookStore)
    (closed : String) (registry : ClientRegistry) (clientId : ClientId)
    (subject : String) (now : Int) :
    ClientRegistry × Except GatewayError Unit :=
  match snapshotTarget subject with
  | .error e => (registry, .error e)
  | .ok (.market marketId) =>
      match OrPanic.getMarket D store marketId none with
      | .ok response =>
          sendMarketSnapshots registry clientId
            (response.map .ofResponse) now
      | .error _ => (registry, .error (.http closed))
  | .ok .skip => (registry, .ok ())
  | .ok (.asset marketId assetId) =>
      match OrPanic.get D store marketId assetId none with
      | .ok response =>
          sendSnapshot registry clientId (response.map .ofResponse) now
      | .error _ => (registry, .error (.http closed))

end Wup.Gateway
