import Wup.Orderbook.Proofs.Feeds
import Wup.Orderbook.Proofs.Replication
import Wup.Orderbook.Proofs.Names
import Wup.Orderbook.Proofs.Metadata
import Wup.Orderbook.Proofs.OrPanic
import Wup.Orderbook.Proofs.Views
import Wup.Executor.Proofs.Consumption
import Wup.Executor.Proofs.Routing
import Wup.Executor.Proofs.Fills
import Wup.Executor.Proofs.Blocking
import Wup.Executor.Proofs.SpendingCap
import Wup.Normalizer.Proofs.Grouping
import Wup.Normalizer.Proofs.BestPrices
import Wup.Normalizer.Proofs.Batches
import Wup.Gateway.Proofs.Lookup
import Wup.Gateway.Proofs.Patterns
import Wup.Gateway.Proofs.Subscription
import Wup.Gateway.Proofs.Streams
import Wup.Gateway.Proofs.Forgetting
import Wup.Gateway.Proofs.Refusal
import Wup.Gateway.Proofs.Coverage
import Wup.Normalizer.Proofs.Reports
import Wup.Polymarket.Proofs.Texts
import Wup.Polymarket.Proofs.Stamp
import Wup.Aggregator.Proofs.Subscriptions
import Wup.Aggregator.Proofs.Distribution
import Wup.Aggregator.Proofs.Reconnect
import Wup.Aggregator.Proofs.Refinement
import Wup.ExternalServices.Proofs.ServiceMetadata
import Wup.Wire.Proofs.Responses
import Wup.Orderbook.Proofs.Api
import Wup.Wire.Proofs.ServerMessages
import Wup.Wire.Proofs.Drain
import Wup.EventService.Proofs.Service
import Wup.Aggregator.Proofs.Start
import Wup.EventService.Proofs.Metadata
import Wup.EventService.Proofs.Mappings
import Wup.Orderbook.Proofs.Recovery
import Wup.Executor.Proofs.Requests
