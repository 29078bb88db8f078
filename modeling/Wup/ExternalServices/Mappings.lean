/-
The rest of the Redis client (`redis_client.rs`): what is read of a single
event, and the two kinds of mappings other services may keep beside the
events.

Each kind has its own prefix, so all three share one database. A stored
text that does not read is an error; its wording is the JSON library's and
a parameter (`ErrorTexts`).
-/
import Wup.ExternalServices.RedisClient

namespace Wup.ExternalServices

open Json

/-- What the libraries say of a text they cannot read. -/
structure ErrorTexts where
  /-- `serde_json::Error`. -/
  json : String → String
  /-- `reqwest::Error` of a body. -/
  body : String → String

/-- Errors of the external services. -/
inductive Error
  | http (text : String)
  | json (text : String)
  | eventNotFound (text : String)
  | api (text : String)
deriving DecidableEq, Repr

/-- The text of an error. -/
def Error.text : Error → String
  | .http text => "HTTP request failed: " ++ text
  | .json text => "JSON parsing failed: " ++ text
  | .eventNotFound text => "Event not found: " ++ text
  | .api text => "API error: " ++ text

-- ================================================================= records

/-- Mapping from condition id to hashed market id. -/
structure ConditionMapping where
  conditionId : String
  hashedMarketId : String
  clobTokenIds : List String
deriving DecidableEq, Repr

/-- Mapping from market slug to hashed market id. -/
structure MarketSlugMapping where
  marketSlug : String
  hashedMarketId : String
  conditionId : String
  marketId : String
deriving DecidableEq, Repr

def ConditionMapping.toValue (m : ConditionMapping) : Value :=
  .obj (.ofMembers
    [("condition_id", .str m.conditionId),
     ("hashed_market_id", .str m.hashedMarketId),
     ("clob_token_ids", .arr (.ofElems (m.clobTokenIds.map .str)))])

def ConditionMapping.ofValue (v : Value) : Option ConditionMapping := do
  let field ← structFields
    ["condition_id", "hashed_market_id", "clob_token_ids"] v
  let conditionId ← (field "condition_id").bind readString
  let hashedMarketId ← (field "hashed_market_id").bind readString
  let clobTokenIds ← (field "clob_token_ids").bind (readVec readString)
  return ⟨conditionId, hashedMarketId, clobTokenIds⟩

def MarketSlugMapping.toValue (m : MarketSlugMapping) : Value :=
  .obj (.ofMembers
    [("market_slug", .str m.marketSlug),
     ("hashed_market_id", .str m.hashedMarketId),
     ("condition_id", .str m.conditionId),
     ("market_id", .str m.marketId)])

def MarketSlugMapping.ofValue (v : Value) : Option MarketSlugMapping := do
  let field ← structFields
    ["market_slug", "hashed_market_id", "condition_id", "market_id"] v
  let marketSlug ← (field "market_slug").bind readString
  let hashedMarketId ← (field "hashed_market_id").bind readString
  let conditionId ← (field "condition_id").bind readString
  let marketId ← (field "market_id").bind readString
  return ⟨marketSlug, hashedMarketId, conditionId, marketId⟩

-- ============================================================== the client

namespace SharedRedisClient

variable (J : SerdeJson) (texts : ErrorTexts)

/-- Read the record under a key, if there is one. -/
def getRecord {α : Type} (ofValue : Value → Option α) (db : Database)
    (key : String) : Except Error (Option α) :=
  match db.lookup key with
  | none => .ok none
  | some json =>
      match (J.fromStr json).bind ofValue with
      | some data => .ok (some data)
      | none => .error (.json (texts.json json))

/-- Get event data from Redis with platform prefix. -/
def getEvent (db : Database) (platform eventSlug : String) :
    Except Error (Option EventData) :=
  getRecord J texts EventData.ofValue db (eventKey platform eventSlug)

/-- Get token mappings for an event. -/
def getTokenMappings (db : Database) (platform eventSlug : String) :
    Except Error (List TokenMapping) :=
  (getEvent J texts db platform eventSlug).map fun event =>
    (event.map (·.tokens)).getD []

/-- Check if event exists in Redis. -/
def eventExists (db : Database) (platform eventSlug : String) : Bool :=
  (db.lookup (eventKey platform eventSlug)).isSome

/-- List all stored events, as platform and slug with a colon between. -/
def listEvents (server : RedisServer) (db : Database) : List String :=
  (server.keys db (eventKeyPrefix ++ "*")).map fun key =>
    (stripPrefix eventKeyPrefix key).getD key

def conditionKey (platform conditionId : String) : String :=
  "condition:" ++ platform ++ ":" ++ conditionId

/-- Store a condition mapping. -/
def storeConditionMapping (db : Database) (platform conditionId : String)
    (mapping : ConditionMapping) : Database :=
  db.insert (conditionKey platform conditionId) (J.toString mapping.toValue)

/-- Get a condition mapping. -/
def getConditionMapping (db : Database) (platform conditionId : String) :
    Except Error (Option ConditionMapping) :=
  getRecord J texts ConditionMapping.ofValue db
    (conditionKey platform conditionId)

/-- Check if condition mapping exists. -/
def conditionMappingExists (db : Database) (platform conditionId : String) :
    Bool :=
  (db.lookup (conditionKey platform conditionId)).isSome

def marketSlugKey (platform marketSlug : String) : String :=
  "market:" ++ platform ++ ":" ++ marketSlug

/-- Store a market slug mapping. -/
def storeMarketSlugMapping (db : Database) (platform marketSlug : String)
    (mapping : MarketSlugMapping) : Database :=
  db.insert (marketSlugKey platform marketSlug) (J.toString mapping.toValue)

/-- Get a market slug mapping. -/
def getMarketBySlug (db : Database) (platform marketSlug : String) :
    Except Error (Option MarketSlugMapping) :=
  getRecord J texts MarketSlugMapping.ofValue db
    (marketSlugKey platform marketSlug)

end SharedRedisClient

end Wup.ExternalServices
