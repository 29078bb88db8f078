/-
Events and markets of the external services (`polymarket/types.rs`), and
what is stored of them.

An event lists its tokens market by market. What is stored has them twice:
in the markets, and flattened into mappings that name the market by its
id.

The stored records are read and written as `serde` derives it: a field
under its name in an object, or at its place in an array; a name that
occurs twice is an error, and an absent `Option` is `None`. A float is the
number it is written as. The clock is a parameter.
-/
import Wup.SerdeJson

namespace Wup.ExternalServices

open Json

variable (J : SerdeJson)

-- ================================================================== events

/-- Market within an event. -/
structure Market where
  id : String
  question : Option String
  slug : Option String
  /-- CLOB token ids as the text of a JSON array. -/
  clobTokenIdsRaw : Option String
  outcomes : Option String
  outcomePrices : Option String
  bestBid : Option Number
  bestAsk : Option Number
  volume : Option String
  liquidity : Option String
  active : Bool
  closed : Bool
deriving DecidableEq, Repr

/-- Event from the platform's API. -/
structure Event where
  id : String
  slug : String
  title : String
  description : Option String
  active : Bool
  closed : Bool
  markets : List Market
deriving DecidableEq, Repr

/-- A `String`. -/
def readString : Value → Option String
  | .str s => some s
  | _ => none

/-- A `Vec`. -/
def readVec {α : Type} (read : Value → Option α) : Value → Option (List α)
  | .arr elems => elems.elemList.mapM read
  | _ => none

/-- The token ids; none if the text is absent or not a list of texts. -/
def Market.clobTokenIds (m : Market) : List String :=
  ((m.clobTokenIdsRaw.bind J.fromStr).bind (readVec readString)).getD []

-- ================================================================= records

/-- Token mapping for subscription management. -/
structure TokenMapping where
  clobTokenId : String
  marketId : String
  eventSlug : String
deriving DecidableEq, Repr

/-- Market data stored in Redis (full market information). -/
structure MarketData where
  id : String
  question : Option String
  slug : Option String
  outcomes : Option String
  outcomePrices : Option String
  bestBid : Option Number
  bestAsk : Option Number
  volume : Option String
  liquidity : Option String
  active : Bool
  closed : Bool
  clobTokenIds : List String
deriving DecidableEq, Repr

/-- Create market data from a market. -/
def MarketData.fromMarket (market : Market) : MarketData where
  id := market.id
  question := market.question
  slug := market.slug
  outcomes := market.outcomes
  outcomePrices := market.outcomePrices
  bestBid := market.bestBid
  bestAsk := market.bestAsk
  volume := market.volume
  liquidity := market.liquidity
  active := market.active
  closed := market.closed
  clobTokenIds := market.clobTokenIds J

/-- Cached event data stored in Redis. -/
structure EventData where
  eventId : String
  slug : String
  title : String
  description : Option String
  active : Bool
  closed : Bool
  markets : List MarketData
  marketCount : Nat
  tokens : List TokenMapping
  fetchedAt : Int
deriving DecidableEq, Repr

/-- Extract token mappings from an event. -/
def extractTokenMappings (event : Event) : List TokenMapping :=
  event.markets.flatMap fun market =>
    (market.clobTokenIds J).map fun tokenId =>
      ⟨tokenId, market.id, event.slug⟩

/-- Create event data from an event. -/
def EventData.fromEvent (event : Event) (now : Int) : EventData where
  eventId := event.id
  slug := event.slug
  title := event.title
  description := event.description
  active := event.active
  closed := event.closed
  markets := event.markets.map (MarketData.fromMarket J)
  marketCount := event.markets.length
  tokens := extractTokenMappings J event
  fetchedAt := now

-- ================================================================= writing

def optionValue {α : Type} (write : α → Value) : Option α → Value
  | some a => write a
  | none => .null

def MarketData.toValue (m : MarketData) : Value :=
  .obj (.ofMembers
    [("id", .str m.id),
     ("question", optionValue .str m.question),
     ("slug", optionValue .str m.slug),
     ("outcomes", optionValue .str m.outcomes),
     ("outcome_prices", optionValue .str m.outcomePrices),
     ("best_bid", optionValue .num m.bestBid),
     ("best_ask", optionValue .num m.bestAsk),
     ("volume", optionValue .str m.volume),
     ("liquidity", optionValue .str m.liquidity),
     ("active", .bool m.active),
     ("closed", .bool m.closed),
     ("clob_token_ids", .arr (.ofElems (m.clobTokenIds.map .str)))])

def TokenMapping.toValue (t : TokenMapping) : Value :=
  .obj (.ofMembers
    [("clob_token_id", .str t.clobTokenId),
     ("market_id", .str t.marketId),
     ("event_slug", .str t.eventSlug)])

def EventData.toValue (e : EventData) : Value :=
  .obj (.ofMembers
    [("event_id", .str e.eventId),
     ("slug", .str e.slug),
     ("title", .str e.title),
     ("description", optionValue .str e.description),
     ("active", .bool e.active),
     ("closed", .bool e.closed),
     ("markets", .arr (.ofElems (e.markets.map MarketData.toValue))),
     ("market_count", .num (.int e.marketCount)),
     ("tokens", .arr (.ofElems (e.tokens.map TokenMapping.toValue))),
     ("fetched_at", .num (.int e.fetchedAt))])

/-- `to_string`. -/
def EventData.toString (e : EventData) : String := J.toString e.toValue

-- ================================================================= reading

/-- The fields of a record: what stands under a name, if anything. -/
def structFields (names : List String) :
    Value → Option (String → Option Value)
  | .obj ms =>
      let known := (ms.memberList.map (·.1)).filter (· ∈ names)
      if known.Nodup then some fun name => ms.find? name else none
  | .arr elems =>
      if elems.elemList.length = names.length then
        some fun name => (names.zip elems.elemList).lookup name
      else none
  | _ => none

/-- An `Option` field. -/
def readOption {α : Type} (read : Value → Option α) :
    Option Value → Option (Option α)
  | none => some none
  | some .null => some none
  | some v => (read v).map some

def readBool : Value → Option Bool
  | .bool b => some b
  | _ => none

/-- An `f64`, kept as the number that is written: its binary rounding is
not modelled, so a stored price reads back as it was sent. -/
def readNumber : Value → Option Number
  | .num n => some n
  | _ => none

/-- An integer within bounds. -/
def readInt (low high : Int) : Value → Option Int
  | .num (.int n) => if low ≤ n ∧ n < high then some n else none
  | _ => none

def MarketData.ofValue (v : Value) : Option MarketData := do
  let field ← structFields
    ["id", "question", "slug", "outcomes", "outcome_prices", "best_bid",
      "best_ask", "volume", "liquidity", "active", "closed",
      "clob_token_ids"] v
  let id ← (field "id").bind readString
  let question ← readOption readString (field "question")
  let slug ← readOption readString (field "slug")
  let outcomes ← readOption readString (field "outcomes")
  let outcomePrices ← readOption readString (field "outcome_prices")
  let bestBid ← readOption readNumber (field "best_bid")
  let bestAsk ← readOption readNumber (field "best_ask")
  let volume ← readOption readString (field "volume")
  let liquidity ← readOption readString (field "liquidity")
  let active ← (field "active").bind readBool
  let closed ← (field "closed").bind readBool
  let clobTokenIds ← (field "clob_token_ids").bind (readVec readString)
  return ⟨id, question, slug, outcomes, outcomePrices, bestBid, bestAsk,
    volume, liquidity, active, closed, clobTokenIds⟩

def TokenMapping.ofValue (v : Value) : Option TokenMapping := do
  let field ← structFields ["clob_token_id", "market_id", "event_slug"] v
  let clobTokenId ← (field "clob_token_id").bind readString
  let marketId ← (field "market_id").bind readString
  let eventSlug ← (field "event_slug").bind readString
  return ⟨clobTokenId, marketId, eventSlug⟩

def EventData.ofValue (v : Value) : Option EventData := do
  let field ← structFields
    ["event_id", "slug", "title", "description", "active", "closed",
      "markets", "market_count", "tokens", "fetched_at"] v
  let eventId ← (field "event_id").bind readString
  let slug ← (field "slug").bind readString
  let title ← (field "title").bind readString
  let description ← readOption readString (field "description")
  let active ← (field "active").bind readBool
  let closed ← (field "closed").bind readBool
  let markets ← (field "markets").bind (readVec MarketData.ofValue)
  let marketCount ← (field "market_count").bind (readInt 0 (2 ^ 64))
  let tokens ← (field "tokens").bind (readVec TokenMapping.ofValue)
  let fetchedAt ← (field "fetched_at").bind (readInt (-2 ^ 63) (2 ^ 63))
  return ⟨eventId, slug, title, description, active, closed, markets,
    marketCount.toNat, tokens, fetchedAt⟩

/-- `from_str`. -/
def EventData.fromStr (text : String) : Option EventData :=
  (J.fromStr text).bind EventData.ofValue

end Wup.ExternalServices
