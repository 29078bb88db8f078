/-
How the aggregator starts (`main.rs`): it reads the stored events of its
platform from Redis and subscribes to all their tokens.

It goes through the events as they are listed; one that does not read is
skipped. If there are no tokens the supervisor starts without a worker.
-/
import Wup.Aggregator.Distribution
import Wup.ExternalServices.Mappings

namespace Wup.Aggregator

open ExternalServices (Database ErrorTexts RedisServer)
open ExternalServices.SharedRedisClient (listEvents getTokenMappings
  stripPrefix)

variable (J : SerdeJson) (texts : ErrorTexts)

/-- Service name for Polymarket. -/
def serviceName : String := "polymarket"

/-- The slugs among the listed events of a platform. -/
def platformEvents (platform : String) (events : List String) :
    List String :=
  (events.filter fun e =>
      (platform ++ ":").toList.isPrefixOf e.toList).map fun e =>
    (stripPrefix (platform ++ ":") e).getD e

/-- Fetch all token mappings from Redis for all events of a platform. -/
def fetchAllTokenMappings (server : RedisServer) (db : Database)
    (platform : String) : List ExternalServices.TokenMapping :=
  (platformEvents platform (listEvents server db)).flatMap fun eventSlug =>
    match getTokenMappings J texts db platform eventSlug with
    | .ok tokens => tokens
    | .error _ => []

def TokenMapping.ofStored (t : ExternalServices.TokenMapping) :
    TokenMapping :=
  ⟨t.clobTokenId, t.marketId, t.eventSlug⟩

/-- The supervisor when the aggregator has started; `none` where its call
does not return. -/
def startedPool (server : RedisServer) (db : Database) (o : Occasion) :
    Option Pool :=
  let mappings := fetchAllTokenMappings J texts server db serviceName
  if mappings = [] then some (.new 50)
  else (Pool.new 50).subscribeWithMappings o (mappings.map .ofStored)

end Wup.Aggregator
