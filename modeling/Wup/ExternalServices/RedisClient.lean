/-
The events in Redis (`redis_client.rs`): one text under one key for each
event, and the two searches that go through the events of a platform.

The database is its keys and texts; `KEYS` lists the keys that match a
pattern, in an order of the server's own, which is the order of the
database's entries. How the server matches a pattern is a parameter, with
what its documentation says of the patterns used here: characters without
a meaning of their own match themselves, and a final `*` matches the rest.
Commands do not fail here.
-/
import Wup.ExternalServices.Types
import Wup.Lib.HashMap

namespace Wup.ExternalServices

variable (J : SerdeJson)

-- ============================================================== the server

/-- What is stored: texts by key. -/
abbrev Database := HashMap String String

/-- The characters a pattern gives a meaning to. -/
def isGlobChar (c : Char) : Bool := c = '*' || c = '?' || c = '[' || c = '\\'

/-- The server, as far as it is a parameter. -/
structure RedisServer where
  /-- Whether a key matches a pattern. -/
  matchesGlob : String → String → Bool

/-- The server as documented. -/
structure RedisServer.Lawful (server : RedisServer) : Prop where
  matches_star : ∀ (literal key : String),
    (∀ c ∈ literal.toList, isGlobChar c = false) →
    (server.matchesGlob (literal ++ "*") key = true
      ↔ literal.toList <+: key.toList)

/-- `KEYS`. -/
def RedisServer.keys (server : RedisServer) (db : Database)
    (pattern : String) : List String :=
  db.keys.filter (server.matchesGlob pattern)

-- ============================================================== the client

namespace SharedRedisClient

/-- Redis key prefix for events: `event:{platform}:{slug}`. -/
def eventKeyPrefix : String := "event:"

/-- What the keys of a platform's events begin with. -/
def platformPrefix (platform : String) : String :=
  eventKeyPrefix ++ platform ++ ":"

def eventKey (platform eventSlug : String) : String :=
  platformPrefix platform ++ eventSlug

/-- Store event data in Redis with platform prefix. -/
def storeEvent (db : Database) (platform eventSlug : String)
    (data : EventData) : Database :=
  db.insert (eventKey platform eventSlug) (data.toString J)

/-- `strip_prefix`. -/
def stripPrefix (start text : String) : Option String :=
  if start.toList.isPrefixOf text.toList then
    some (String.ofList (text.toList.drop start.toList.length))
  else none

/-- The slug of a key. -/
def slugOf (platform key : String) : String :=
  (stripPrefix (platformPrefix platform) key).getD ""

/-- The loop of both searches: the first event of the platform, in the
order of the keys, in which a market is found. A text that does not read
is passed over. -/
def findMarket (server : RedisServer) (db : Database) (platform : String)
    (pick : EventData → Option MarketData) : Option (String × MarketData) :=
  (server.keys db (platformPrefix platform ++ "*")).findSome? fun key =>
    (db.lookup key).bind fun json =>
      (EventData.fromStr J json).bind fun eventData =>
        (pick eventData).map fun market => (slugOf platform key, market)

/-- Find market data by market id across all events for a platform. -/
def findMarketById (server : RedisServer) (db : Database)
    (platform marketId : String) : Option (String × MarketData) :=
  findMarket J server db platform fun eventData =>
    eventData.markets.find? fun market => market.id = marketId

/-- The market of an event that a token's first mapping names. -/
def marketOfToken (tokenId : String) (eventData : EventData) :
    Option MarketData :=
  (eventData.tokens.find? fun t => t.clobTokenId = tokenId).bind
    fun mapping =>
      eventData.markets.find? fun market => market.id = mapping.marketId

/-- Find market data by token id across all events for a platform. -/
def findMarketByTokenId (server : RedisServer) (db : Database)
    (platform tokenId : String) : Option (String × MarketData) :=
  findMarket J server db platform (marketOfToken tokenId)

end SharedRedisClient

-- ===================================================== a concrete instance

/-- Some end of a text passes. -/
def anySuffix (passes : List Char → Bool) : List Char → Bool
  | [] => passes []
  | c :: cs => passes (c :: cs) || anySuffix passes cs

/-- `*` for any characters and `?` for one; classes and escapes are read
as they are written. -/
def globMatch : List Char → List Char → Bool
  | [], key => key.isEmpty
  | p :: pattern, key =>
      if p = '*' then anySuffix (globMatch pattern) key
      else
        match key with
        | [] => false
        | c :: key => (p = '?' || p = c) && globMatch pattern key

def simpleServer : RedisServer where
  matchesGlob pattern key := globMatch pattern.toList key.toList

theorem anySuffix_isEmpty (cs : List Char) :
    anySuffix List.isEmpty cs = true := by
  induction cs with
  | nil => rfl
  | cons c cs ih => rw [anySuffix, ih, Bool.or_true]

theorem simpleServer_lawful : simpleServer.Lawful where
  matches_star := by
    intro literal key hliteral
    show globMatch (literal ++ "*").toList key.toList = true ↔ _
    rw [String.toList_append]
    generalize literal.toList = start at hliteral
    generalize key.toList = cs
    induction start generalizing cs with
    | nil =>
        refine iff_of_true ?_ (List.nil_prefix ..)
        exact anySuffix_isEmpty cs
    | cons p start ih =>
        have hp : p ≠ '*' ∧ p ≠ '?' := by
          have h := hliteral p (List.mem_cons_self ..)
          simp only [isGlobChar, Bool.or_eq_false_iff,
            decide_eq_false_iff_not] at h
          exact ⟨h.1.1.1, h.1.1.2⟩
        rw [List.cons_append]
        unfold globMatch
        rw [if_neg hp.1]
        cases cs with
        | nil => simp
        | cons c cs =>
            simp only [hp.2, decide_false, Bool.false_or, Bool.and_eq_true,
              decide_eq_true_eq, List.cons_prefix_cons]
            rw [ih fun d hd => hliteral d (List.mem_cons_of_mem _ hd)]

end Wup.ExternalServices
