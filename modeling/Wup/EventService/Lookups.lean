/-
The orderbook service's lookups, while the event service stores events.

A lookup is not one command. The orderbook service lists the keys of a
platform's events and then gets them one at a time
(`find_market_by_token_id`), and where it found nothing it does so once
more by market id (`find_market_by_id`). Between any two commands the
event service may store events. Until the lookup has ended the message
waits, and with it all later ones.

The next command is a step (`get`); the state of a lookup under way is the
message, which of the two searches it is in, and the keys still to get.
-/
import Wup.EventService.Service
import Wup.Orderbook.Service

namespace Wup.EventService

open ExternalServices (Database ErrorTexts EventData RedisServer)
open ExternalServices.SharedRedisClient (marketOfToken platformPrefix
  slugOf)

variable (D : RustDecimal) (J : SerdeJson) (texts : ErrorTexts)

/-- A lookup under way. -/
structure Search where
  msg : NormalizedOrderbook
  /-- The fallback: by market id, no more by token id. -/
  byMarketId : Bool
  /-- The keys still to get. -/
  keys : List String

namespace Search

/-- `KEYS`, at the beginning of a search. -/
def begin (server : RedisServer) (db : Database)
    (msg : NormalizedOrderbook) (byMarketId : Bool) : Search where
  msg := msg
  byMarketId := byMarketId
  keys := server.keys db (platformPrefix msg.platform ++ "*")

/-- The market that is looked for in an event. -/
def pick (search : Search) (eventData : EventData) :
    Option ExternalServices.MarketData :=
  if search.byMarketId then
    eventData.markets.find? fun market => market.id = search.msg.marketId
  else marketOfToken search.msg.clobTokenId eventData

/-- `GET`, and what is found in the event; a text that does not read is
passed over. -/
def found (search : Search) (db : Database) (key : String) :
    Option (String × ExternalServices.MarketData) :=
  (db.lookup key).bind fun json =>
    (EventData.fromStr J json).bind fun eventData =>
      (search.pick eventData).map fun market =>
        (slugOf search.msg.platform key, market)

/-- The metadata of a market that was found. -/
def metadata (search : Search) (slug : String)
    (market : ExternalServices.MarketData) : MarketMetadata where
  questions := match market.question with
    | some question =>
        (∅ : HashMap String String).insert search.msg.platform question
    | none => ∅
  slugs := (∅ : HashMap String String).insert search.msg.platform slug

end Search

/-- Both services on one database. -/
structure Deployment where
  events : Service
  store : OrderbookStore
  search : Option Search

inductive DeploymentAction
  /-- The event service, or a write of another service. -/
  | events (action : ServiceAction)
  /-- The orderbook service takes a message. -/
  | message (msg : NormalizedOrderbook)
  /-- The next command of its lookup. -/
  | get

namespace Deployment

def start : Deployment := ⟨.start, .new, none⟩

/-- Take a step; `none` where it cannot be taken now. -/
def step (server : RedisServer) (d : Deployment) :
    DeploymentAction → Option Deployment
  | .events action =>
      (d.events.step J texts server action).map fun events =>
        { d with events := events }
  | .message msg =>
      match d.search with
      | some _ => none
      | none =>
          if (d.store.getCachedMarketMetadata msg.marketId).isNone then
            some { d with
              search := some (.begin server d.events.db msg false) }
          else some { d with store := d.store.apply D msg }
  | .get =>
      match d.search with
      | none => none
      | some search =>
          match search.keys with
          | key :: keys =>
              match search.found J d.events.db key with
              | some (slug, market) =>
                  let store := d.store.cacheMarketMetadata
                    search.msg.marketId (search.metadata slug market)
                  some { d with
                    store := store.apply D search.msg
                    search := none }
              | none =>
                  some { d with search := some { search with keys := keys } }
          | [] =>
              if search.byMarketId then
                some { d with
                  store := d.store.apply D search.msg
                  search := none }
              else
                some { d with
                  search :=
                    some (.begin server d.events.db search.msg true) }

/-- The steps of a run, one after another. -/
def run (server : RedisServer) (d : Deployment)
    (actions : List DeploymentAction) : Option Deployment :=
  actions.foldlM (step D J texts server) d

end Deployment

end Wup.EventService
