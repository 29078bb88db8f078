/-
The event service (`event_service`): it keeps the events of the platform
in Redis and answers for them.

An event is stored when it is asked for, at the start or over HTTP, and
again whenever a pass over all stored events comes to it. A pass lists the
keys first and takes one after another; requests and the writes of other
services fall in between. What the platform's API answers is given with
each step, and a step stores what was read of it.

Redis does not fail here; health checks are left out.
-/
import Wup.ExternalServices.PolymarketClient

namespace Wup.EventService

open ExternalServices
open SharedRedisClient (storeEvent getEvent getTokenMappings eventExists
  listEvents storeConditionMapping storeMarketSlugMapping)

variable (J : SerdeJson) (texts : ErrorTexts)

-- =============================================================== responses

/-- An error response: its status and text. -/
structure Refusal where
  status : Nat
  error : String
deriving DecidableEq, Repr

structure EventListResponse where
  /-- Platform and slug, with a colon between. -/
  events : List String
  count : Nat
deriving DecidableEq, Repr

structure TokensResponse where
  platform : String
  eventSlug : String
  tokens : List TokenMapping
  count : Nat
deriving DecidableEq, Repr

structure RefreshResponse where
  status : String
  platform : String
  eventSlug : String
  tokenCount : Nat
deriving DecidableEq, Repr

-- ================================================================ handlers

def internalError (e : Error) : Refusal := ⟨500, e.text⟩

def notFound (platform slug : String) : Refusal :=
  ⟨404, "Event not found: " ++ platform ++ ":" ++ slug⟩

/-- List all stored events. -/
def listEventsHandler (server : RedisServer) (db : Database) :
    EventListResponse :=
  let events := listEvents server db
  ⟨events, events.length⟩

/-- Get event data by platform and slug. -/
def getEventHandler (db : Database) (platform slug : String) :
    Except Refusal EventData :=
  match getEvent J texts db platform slug with
  | .ok (some event) => .ok event
  | .ok none => .error (notFound platform slug)
  | .error e => .error (internalError e)

/-- Get token mappings for an event. -/
def getTokensHandler (db : Database) (platform slug : String) :
    Except Refusal TokensResponse :=
  match getTokenMappings J texts db platform slug with
  | .ok tokens =>
      if tokens = [] then
        -- check if event exists
        if eventExists db platform slug then .ok ⟨platform, slug, [], 0⟩
        else .error (notFound platform slug)
      else .ok ⟨platform, slug, tokens, tokens.length⟩
  | .error e => .error (internalError e)

/-- Read an answer for a slug, and store what was read. -/
def fetchAndStore (db : Database) (platform slug : String)
    (reply : HttpReply) (now : Int) : Database × Except Error EventData :=
  match PolymarketClient.fetchEventData J texts slug reply now with
  | .ok data => (storeEvent J db platform slug data, .ok data)
  | .error e => (db, .error e)

/-- Refresh event data from platform API. -/
def refreshEventHandler (db : Database) (platform slug : String)
    (reply : HttpReply) (now : Int) :
    Database × Except Refusal RefreshResponse :=
  if platform ≠ "polymarket" then
    (db, .error ⟨400, "Unsupported platform: " ++ platform
      ++ ". Only 'polymarket' is supported."⟩)
  else
    match fetchAndStore J texts db platform slug reply now with
    | (db, .ok data) =>
        (db, .ok ⟨"refreshed", platform, slug, data.tokens.length⟩)
    | (db, .error e) =>
        (db, .error ⟨502, "Failed to fetch from Polymarket: " ++ e.text⟩)

-- ================================================================ the pass

/-- `splitn(2, ':')`, where it has two parts. -/
def splitOnce (key : String) : Option (String × String) :=
  match key.toList.dropWhile (· ≠ ':') with
  | [] => none
  | _ :: slug =>
      some (String.ofList (key.toList.takeWhile (· ≠ ':')),
        String.ofList slug)

/-- Refresh one of the listed events. -/
def refreshEvent (db : Database) (eventKey : String) (reply : HttpReply)
    (now : Int) : Database :=
  match splitOnce eventKey with
  | none => db
  | some (platform, slug) =>
      -- currently only polymarket is supported
      if platform ≠ "polymarket" then db
      else (fetchAndStore J texts db platform slug reply now).1

/-- An event that was stored. -/
structure Entry where
  slug : String
  event : Event
  storedAt : Int
deriving DecidableEq, Repr

/-- What is stored for a slug after an answer. -/
def entries (slug : String) (reply : HttpReply) (now : Int) : List Entry :=
  match PolymarketClient.fetchEventBySlug J texts slug reply with
  | .ok event => [⟨slug, event, now⟩]
  | .error _ => []

/-- What is stored of a listed event. -/
def refreshedEntries (eventKey : String) (reply : HttpReply) (now : Int) :
    List Entry :=
  match splitOnce eventKey with
  | none => []
  | some (platform, slug) =>
      if platform ≠ "polymarket" then []
      else entries J texts slug reply now

/-- The database, and what a pass over the stored events has still to do. -/
structure Service where
  db : Database
  pending : List String
  /-- History: what was stored, in order. No step reads it. -/
  history : List Entry

/-- A step of the service, or a write of another service. -/
inductive ServiceAction
  /-- The event that is asked for at the start. -/
  | initial (slug : String) (reply : HttpReply) (now : Int)
  /-- An event that is asked for over HTTP. -/
  | refresh (platform slug : String) (reply : HttpReply) (now : Int)
  /-- A pass begins. -/
  | list
  /-- The pass takes the next event. -/
  | next (reply : HttpReply) (now : Int)
  | storeCondition (platform conditionId : String)
      (mapping : ConditionMapping)
  | storeMarketSlug (platform slug : String) (mapping : MarketSlugMapping)

namespace Service

/-- Nothing stored yet. -/
def start : Service := ⟨∅, [], []⟩

/-- Take a step; `none` where it cannot be taken now. -/
def step (server : RedisServer) (s : Service) :
    ServiceAction → Option Service
  | .initial slug reply now =>
      some { s with
        db := (fetchAndStore J texts s.db "polymarket" slug reply now).1
        history := s.history ++ entries J texts slug reply now }
  | .refresh platform slug reply now =>
      some { s with
        db := (refreshEventHandler J texts s.db platform slug reply now).1
        history := s.history ++
          if platform = "polymarket" then entries J texts slug reply now
          else [] }
  | .list =>
      if s.pending = [] then
        some { s with pending := listEvents server s.db }
      else none
  | .next reply now =>
      match s.pending with
      | [] => none
      | eventKey :: pending =>
          some
            { db := refreshEvent J texts s.db eventKey reply now
              pending := pending
              history := s.history ++
                refreshedEntries J texts eventKey reply now }
  | .storeCondition platform conditionId mapping =>
      some { s with
        db := storeConditionMapping J s.db platform conditionId mapping }
  | .storeMarketSlug platform slug mapping =>
      some { s with
        db := storeMarketSlugMapping J s.db platform slug mapping }

/-- The steps of a run, one after another. -/
def run (server : RedisServer) (s : Service)
    (actions : List ServiceAction) : Option Service :=
  actions.foldlM (step J texts server) s

end Service

end Wup.EventService
