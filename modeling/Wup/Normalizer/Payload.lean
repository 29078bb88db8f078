/-
How a payload is read (`ParsedMessage::parse_all`), and
`parse_and_transform`.

A payload is one message or an array of messages. The records are read as
`serde` derives it: a field under its name in an object, or at its place
in an array; what an object has besides is ignored. A payload that cannot
be read is turned down as a whole, with an error that nobody looks at:
`none`.
-/
import Wup.Normalizer.Adapter
import Wup.SerdeJson

namespace Wup.Normalizer

open Json

-- ================================================================== fields

/-- `string_or_number`: a string, a number as text, or an empty string. -/
def stringOrNumber : Value → String
  | .str s => s
  | .num n => n.toString
  | _ => ""

/-- `string_or_number_default`, and the default of its fields. -/
def stringOrNumberDefault : Option Value → String
  | some v => stringOrNumber v
  | none => ""

/-- A `String` field. -/
def readString : Option Value → Option String
  | some (.str s) => some s
  | _ => none

theorem readString_eq_some {field : Option Value} {s : String}
    (h : readString field = some s) : field = some (.str s) := by
  unfold readString at h
  split at h
  · rw [Option.some.inj h]
  · cases h

/-- An `i64` field with a default. -/
def readI64Default : Option Value → Option Int
  | none => some 0
  | some (.num (.int n)) =>
      if -2 ^ 63 ≤ n ∧ n < 2 ^ 63 then some n else none
  | _ => none

/-- A `Vec` field. -/
def readVec {α : Type*} (read : Value → Option α) :
    Option Value → Option (List α)
  | some (.arr elems) => elems.elemList.mapM read
  | _ => none

/-- The fields of a record, by name. -/
def structFields (names : List String) :
    Value → Option (String → Option Value)
  | .obj members => some fun name => members.find? name
  | .arr elems =>
      if elems.elemList.length ≤ names.length then
        some fun name => (names.zip elems.elemList).lookup name
      else none
  | _ => none

-- ================================================================= records

def RawPriceLevel.fieldNames : List String := ["price", "size"]

def RawPriceLevel.ofValue (v : Value) : Option RawPriceLevel := do
  let field ← structFields fieldNames v
  let price ← (field "price").map stringOrNumber
  let size ← (field "size").map stringOrNumber
  return ⟨price, size⟩

def RawBookMessage.fieldNames : List String :=
  ["event_type", "asset_id", "market", "bids", "asks", "timestamp", "hash",
    "received_at"]

def RawBookMessage.ofValue (v : Value) : Option RawBookMessage := do
  let field ← structFields fieldNames v
  let eventType ← readString (field "event_type")
  let assetId ← readString (field "asset_id")
  let market ← readString (field "market")
  let bids ← readVec RawPriceLevel.ofValue (field "bids")
  let asks ← readVec RawPriceLevel.ofValue (field "asks")
  let timestamp ← (field "timestamp").map stringOrNumber
  let hash := stringOrNumberDefault (field "hash")
  let receivedAt ← readI64Default (field "received_at")
  return ⟨eventType, assetId, market, bids, asks, timestamp, hash,
    receivedAt⟩

def RawPriceChange.fieldNames : List String :=
  ["asset_id", "price", "size", "side", "hash", "best_bid", "best_ask"]

def RawPriceChange.ofValue (v : Value) : Option RawPriceChange := do
  let field ← structFields fieldNames v
  let assetId ← readString (field "asset_id")
  let price ← (field "price").map stringOrNumber
  let size ← (field "size").map stringOrNumber
  let side ← readString (field "side")
  let hash := stringOrNumberDefault (field "hash")
  let bestBid := stringOrNumberDefault (field "best_bid")
  let bestAsk := stringOrNumberDefault (field "best_ask")
  return ⟨assetId, price, size, side, hash, bestBid, bestAsk⟩

def RawPriceChangeMessage.fieldNames : List String :=
  ["event_type", "market", "price_changes", "timestamp", "received_at"]

def RawPriceChangeMessage.ofValue (v : Value) :
    Option RawPriceChangeMessage := do
  let field ← structFields fieldNames v
  let eventType ← readString (field "event_type")
  let market ← readString (field "market")
  let priceChanges ← readVec RawPriceChange.ofValue (field "price_changes")
  let timestamp ← (field "timestamp").map stringOrNumber
  let receivedAt ← readI64Default (field "received_at")
  return ⟨eventType, market, priceChanges, timestamp, receivedAt⟩

-- ================================================================ messages

inductive ParsedMessage
  | book (book : RawBookMessage)
  | priceChange (msg : RawPriceChangeMessage)
  | unknown (eventType : String)
deriving DecidableEq, Repr

/-- The event type of a message. -/
def eventTypeOf (obj : Value) : String :=
  (readString (obj.get? "event_type")).getD "unknown"

namespace ParsedMessage

/-- `parse_value`. -/
def parseValue (obj : Value) : Option ParsedMessage :=
  let eventType := eventTypeOf obj
  if eventType = "book" then (RawBookMessage.ofValue obj).map .book
  else if eventType = "price_change" then
    (RawPriceChangeMessage.ofValue obj).map .priceChange
  else some (.unknown eventType)

/-- The messages of a payload. -/
def messages : Value → List Value
  | .arr elems => elems.elemList
  | v => [v]

/-- `parse_all`. -/
def parseAll (J : SerdeJson) (payload : String) :
    Option (List ParsedMessage) := do
  let value ← J.fromStr payload
  (messages value).mapM parseValue

/-- What a message becomes. -/
def transform (order : GroupOrder) (normalizedAt : String) :
    ParsedMessage → List NormalizedOrderbook
  | .book msg => [transformBook msg normalizedAt]
  | .priceChange msg => transformPriceChange order msg normalizedAt
  | .unknown _ => []

end ParsedMessage

/-- The orders in which the groups of a payload's messages come out, one
for each message: every hash map has its own. -/
abbrev GroupOrders := Nat → GroupOrder

/-- `parse_and_transform`. -/
def PolymarketAdapter.parseAndTransform (J : SerdeJson)
    (orders : GroupOrders) (payload normalizedAt : String) :
    Option (List NormalizedOrderbook) :=
  (ParsedMessage.parseAll J payload).map fun parsed =>
    parsed.zipIdx.flatMap fun (msg, i) =>
      msg.transform (orders i) normalizedAt

end Wup.Normalizer
