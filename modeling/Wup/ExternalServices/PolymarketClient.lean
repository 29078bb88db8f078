/-
The client of the platform's API (`polymarket/client.rs`): an event by its
slug, as the record that is stored.

The API is asked for the events with a slug and the first is taken. What
came back is a parameter of each call: that the request failed, or an
answer with its status, the status as it is printed, and its body.

Fields of an event that may be missing have defaults, and in an array the
last of these may be left out.
-/
import Wup.ExternalServices.Mappings

namespace Wup.ExternalServices

open Json

variable (J : SerdeJson) (texts : ErrorTexts)

-- ================================================================= reading

/-- The fields of a record of which all but the first ones have defaults. -/
def defaultFields (required : Nat) (names : List String) :
    Value → Option (String → Option Value)
  | .arr elems =>
      if required ≤ elems.elemList.length
          ∧ elems.elemList.length ≤ names.length then
        some fun name => (names.zip elems.elemList).lookup name
      else none
  | v => structFields names v

/-- A field with a default. -/
def readDefault {α : Type} (read : Value → Option α) (default : α) :
    Option Value → Option α
  | none => some default
  | some v => read v

def Market.ofValue (v : Value) : Option Market := do
  let field ← defaultFields 1
    ["id", "question", "slug", "clobTokenIds", "outcomes", "outcomePrices",
      "bestBid", "bestAsk", "volume", "liquidity", "active", "closed"] v
  let id ← (field "id").bind readString
  let question ← readOption readString (field "question")
  let slug ← readOption readString (field "slug")
  let clobTokenIdsRaw ← readOption readString (field "clobTokenIds")
  let outcomes ← readOption readString (field "outcomes")
  let outcomePrices ← readOption readString (field "outcomePrices")
  let bestBid ← readOption readNumber (field "bestBid")
  let bestAsk ← readOption readNumber (field "bestAsk")
  let volume ← readOption readString (field "volume")
  let liquidity ← readOption readString (field "liquidity")
  let active ← readDefault readBool false (field "active")
  let closed ← readDefault readBool false (field "closed")
  return ⟨id, question, slug, clobTokenIdsRaw, outcomes, outcomePrices,
    bestBid, bestAsk, volume, liquidity, active, closed⟩

def Event.ofValue (v : Value) : Option Event := do
  let field ← defaultFields 3
    ["id", "slug", "title", "description", "active", "closed", "markets"] v
  let id ← (field "id").bind readString
  let slug ← (field "slug").bind readString
  let title ← (field "title").bind readString
  let description ← readOption readString (field "description")
  let active ← readDefault readBool false (field "active")
  let closed ← readDefault readBool false (field "closed")
  let markets ← readDefault (readVec Market.ofValue) [] (field "markets")
  return ⟨id, slug, title, description, active, closed, markets⟩

-- =============================================================== the calls

/-- What becomes of a request. -/
inductive HttpReply
  /-- It failed. -/
  | failed (text : String)
  | answer (status : Nat) (statusText body : String)
deriving DecidableEq, Repr

namespace PolymarketClient

/-- Fetch event by slug from Polymarket API. -/
def fetchEventBySlug (slug : String) : HttpReply → Except Error Event
  | .failed text => .error (.http text)
  | .answer status statusText body =>
      if 200 ≤ status ∧ status < 300 then
        match (J.fromStr body).bind (readVec Event.ofValue) with
        | none => .error (.http (texts.body body))
        | some [] =>
            .error (.eventNotFound ("No event found with slug: " ++ slug))
        | some (event :: _) => .ok event
      else
        .error (.api ("API returned status " ++ statusText ++ ": " ++ body))

/-- Fetch event and return event data ready for Redis storage. -/
def fetchEventData (slug : String) (reply : HttpReply) (now : Int) :
    Except Error EventData :=
  (fetchEventBySlug J texts slug reply).map fun event =>
    .fromEvent J event now

end PolymarketClient

end Wup.ExternalServices
