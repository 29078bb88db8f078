/-
The time of receipt, put into a payload as text
(`PolymarketHandler::inject_received_at`).

The payload is not parsed. Where it starts with a bracket, the timestamp
is written behind every brace that a quote follows; else it is written
behind the first brace. What the edit relies on is stated on the syntax
tree of the payload (`Injectable`), and what it is for on the values
(`OnlyAdds`, `ExactlyAdds`).
-/
import Wup.Lib.JsonEdit
import Wup.Normalizer.Proofs.Unread

namespace Wup.Polymarket

open Json Normalizer ParsedMessage

-- ================================================================ the edit

/-- The characters `trim_start` takes away. -/
def isWhiteSpace (c : Char) : Bool :=
  let n := c.toNat
  (9 ≤ n && n ≤ 13) || n = 0x20 || n = 0x85 || n = 0xA0 || n = 0x1680
    || (0x2000 ≤ n && n ≤ 0x200A) || n = 0x2028 || n = 0x2029
    || n = 0x202F || n = 0x205F || n = 0x3000

/-- The timestamp with its name and a comma. -/
def timestampField (receivedAt : Int) : List Char :=
  "\"received_at\":".toList ++ intText receivedAt ++ [',']

/-- `inject_received_at`, on characters. -/
def injectChars (msg : List Char) (receivedAt : Int) : List Char :=
  if (msg.dropWhile isWhiteSpace).head? = some '[' then
    -- into each object
    replacePair '{' '"' ('{' :: timestampField receivedAt ++ ['"']) msg
  else
    -- at the start of the one object
    match msg.dropWhile (· ≠ '{') with
    | [] => msg
    | brace :: rest =>
        msg.takeWhile (· ≠ '{') ++ brace :: timestampField receivedAt
          ++ rest

def injectReceivedAt (msg : String) (receivedAt : Int) : String :=
  String.ofList (injectChars msg.toList receivedAt)

-- ======================================================= what it relies on

/-- An object whose first key follows its brace directly. -/
def OpensWithKey : Syn .value → Prop
  | .obj members => members.startsWithKey = true
  | _ => False

/-- An object is not empty; the objects of an array open with a key each,
and no string in it ends in a brace. -/
def Injectable : Syn .value → Prop
  | .emptyObj _ => False
  | .arr elems =>
      (∀ e ∈ elems.elemTrees, OpensWithKey e)
        ∧ ∀ lit ∈ elems.literals, lit.1.getLast? ≠ some '{'
  | _ => True

/-- How many objects inside an object open with a key. -/
def openingsInside : Syn .value → Nat
  | .obj members => members.openings
  | _ => 0

/-- The objects of an array have no objects inside that open with a
key. -/
def NothingInside : Syn .value → Prop
  | .arr elems => ∀ e ∈ elems.elemTrees, openingsInside e = 0
  | _ => True

-- ========================================================== what it is for

variable (J : SerdeJson)

/-- The payload can still be read; each message has got the time of
receipt, and nothing else that is read has changed. So it becomes the
same normalized messages with that time of receipt. -/
def OnlyAdds (receivedAt : Int) (payload : String) (v : Value) : Prop :=
  ∃ v', J.fromStr (injectReceivedAt payload receivedAt) = some v'
    ∧ v'.isArr = v.isArr
    ∧ List.Forall₂ (Stamped receivedAt) (messages v) (messages v')
    ∧ ∀ orders normalizedAt,
      PolymarketAdapter.parseAndTransform J orders
          (injectReceivedAt payload receivedAt) normalizedAt
        = (PolymarketAdapter.parseAndTransform J orders payload
            normalizedAt).map
          (·.map fun out => { out with receivedAt := receivedAt })

/-- The message with the time of receipt in front. -/
def addReceivedAt (receivedAt : Int) : Value → Value
  | .obj members =>
      .obj (.member receivedAtKey (.num (.int receivedAt)) members)
  | v => v

/-- The value with the time of receipt added to every message. -/
def withReceivedAt (receivedAt : Int) : Value → Value
  | .arr elems =>
      .arr (.ofElems (elems.elemList.map (addReceivedAt receivedAt)))
  | v => addReceivedAt receivedAt v

/-- The payload can still be read, as the same value with the time of
receipt added to every message and nothing anywhere else. -/
def ExactlyAdds (receivedAt : Int) (payload : String) (v : Value) : Prop :=
  J.fromStr (injectReceivedAt payload receivedAt)
    = some (withReceivedAt receivedAt v)

end Wup.Polymarket
