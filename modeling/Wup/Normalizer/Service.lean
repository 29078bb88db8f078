/-
The normalizer service (`service.rs`, `traits.rs`), and what of it the
Polymarket handler does inline (`handler.rs`).

The service takes a raw payload off NATS and publishes what it normalizes
to, one publication a message, up to the first that fails. The handler
does the same with each frame of the exchange before the frame goes
anywhere, after it has put the time of receipt in. A payload that cannot
be read is dropped by both.
-/
import Wup.Polymarket.Stamp
import Wup.Wire.Nats
import Wup.Wire.Schema

namespace Wup.Normalizer

variable (J : SerdeJson)

/-- Configuration for an exchange adapter. -/
structure AdapterConfig where
  sourceStream : String
  filterSubject : String
  destStream : String
  outputSubjectPrefix : String
deriving DecidableEq, Repr

/-- `FILTER_SUBJECT`. -/
def PolymarketAdapter.filterSubject : String := "market.polymarket.>"

/-- Create the default adapter configuration. -/
def PolymarketAdapter.defaultConfig : AdapterConfig where
  sourceStream := "MARKET_DATA"
  filterSubject := PolymarketAdapter.filterSubject
  destStream := "NORMALIZED_DATA"
  outputSubjectPrefix := "normalized." ++ PolymarketAdapter.name

/-- Build the output subject: `{prefix}.{market}.{token}`. -/
def PolymarketAdapter.buildOutputSubject (config : AdapterConfig)
    (msg : NormalizedOrderbook) : String :=
  config.outputSubjectPrefix ++ "." ++ msg.marketId ++ "."
    ++ msg.clobTokenId

/-- Publish a normalized message. -/
def publishNormalized (config : AdapterConfig)
    (msg : NormalizedOrderbook) : Publication where
  subject := PolymarketAdapter.buildOutputSubject config msg
  payload := msg.toString J

/-- What a payload normalizes to; nothing, if it cannot be read. -/
def normalize (orders : GroupOrders) (normalizedAt payload : String) :
    List NormalizedOrderbook :=
  (PolymarketAdapter.parseAndTransform J orders payload normalizedAt).getD
    []

/-- Process a single raw message: what is published for it, in order. -/
def processMessage (config : AdapterConfig) (orders : GroupOrders)
    (normalizedAt payload : String) : List Publication :=
  (normalize J orders normalizedAt payload).map (publishNormalized J config)

end Wup.Normalizer

namespace Wup.Polymarket.PolymarketHandler

open Normalizer

variable (J : SerdeJson)

/-- The adapter configuration of the handler; it takes nothing off
NATS. -/
def adapterConfig : AdapterConfig where
  sourceStream := ""
  filterSubject := ""
  destStream := "POLYMARKET_NORMALIZED"
  outputSubjectPrefix := "normalized.polymarket"

/-- What a frame received at a time normalizes to. -/
def normalizeFrame (orders : GroupOrders) (normalizedAt : String)
    (receivedAt : Int) (msg : String) : List NormalizedOrderbook :=
  normalize J orders normalizedAt (injectReceivedAt msg receivedAt)

/-- `on_message`: what is published for a frame, in order. -/
def onMessage (orders : GroupOrders) (normalizedAt : String)
    (receivedAt : Int) (msg : String) : List Publication :=
  (normalizeFrame J orders normalizedAt receivedAt msg).map
    (publishNormalized J adapterConfig)

end Wup.Polymarket.PolymarketHandler
