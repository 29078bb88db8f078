/-
What the orderbook service caches of the stored events.

The service looks metadata up with the client of the events
(`eventLookups`), while the events do not change. A record it has for a
market is made of a market of a stored event of some message's platform,
one that lists the message's token or has the message's market id
(`cached_run_sound`), and it has one as soon as some message of the market
has such an event (`isSome_cached_run_iff`): whatever the messages, and in
every order of the keys.
-/
import Wup.ExternalServices.Proofs.TokenLookup
import Wup.Orderbook.Proofs.Metadata

namespace Wup.ExternalServices

variable {J : SerdeJson} {server : RedisServer} {db : Database}
  {events : Events}

-- ============================================================= one message

/-- What the service reads of a stored market. -/
def MarketData.seen (m : MarketData) : Wup.MarketData := ⟨m.id, m.question⟩

/-- The service's lookups, on a database of events. -/
def eventLookups (J : SerdeJson) (server : RedisServer) (db : Database) :
    RedisClient where
  findMarketByTokenId platform tokenId :=
    (SharedRedisClient.findMarketByTokenId J server db platform tokenId).map
      (Prod.map id MarketData.seen)
  findMarketById platform marketId :=
    (SharedRedisClient.findMarketById J server db platform marketId).map
      (Prod.map id MarketData.seen)

/-- A market of a stored event of the message's platform: it lists the
message's token or has its market id. -/
structure Concerns (J : SerdeJson) (events : Events)
    (msg : NormalizedOrderbook) (p : Platform) (slug : String)
    (market : Market) : Prop where
  platform : p.name = msg.platform
  stored : ∃ e, events p slug = some e ∧ market ∈ e.event.markets
  matched : msg.clobTokenId ∈ market.clobTokenIds J
    ∨ market.id = msg.marketId

/-- What is found for a message concerns it. -/
theorem found_sound (hserver : server.Lawful) (h : Stored J db events)
    {msg : NormalizedOrderbook} {p : Platform}
    (hp : p.name = msg.platform) {slug : String} {seen : Wup.MarketData}
    (hfound : (eventLookups J server db).found msg = some (slug, seen)) :
    ∃ market, Concerns J events msg p slug market
      ∧ seen = ⟨market.id, market.question⟩ := by
  unfold RedisClient.found eventLookups at hfound
  simp only [← hp] at hfound
  rcases Option.or_eq_some_iff.1 hfound with htoken | ⟨-, hid⟩
  · obtain ⟨⟨_, found⟩, hsearch, heq⟩ := Option.map_eq_some_iff.1 htoken
    obtain ⟨rfl, rfl⟩ := Prod.mk.inj heq
    obtain ⟨e, market, he, hlists, rfl⟩ :=
      findMarketByTokenId_sound hserver h hsearch
    exact ⟨market, ⟨hp, ⟨e, he, hlists.1⟩, .inl hlists.2⟩, rfl⟩
  · obtain ⟨⟨_, found⟩, hsearch, heq⟩ := Option.map_eq_some_iff.1 hid
    obtain ⟨rfl, rfl⟩ := Prod.mk.inj heq
    obtain ⟨e, market, he, hmarket, hmarketId, rfl⟩ :=
      findMarketById_sound hserver h hsearch
    exact ⟨market, ⟨hp, ⟨e, he, hmarket⟩, .inr hmarketId⟩, rfl⟩

/-- Something is found for a message exactly when something concerns it. -/
theorem isSome_found_iff (hserver : server.Lawful) (h : Stored J db events)
    {msg : NormalizedOrderbook} {p : Platform}
    (hp : p.name = msg.platform) :
    ((eventLookups J server db).found msg).isSome = true
      ↔ ∃ slug market, Concerns J events msg p slug market := by
  refine ⟨fun hsome => ?_, fun hconcerns => ?_⟩
  · obtain ⟨⟨slug, seen⟩, hfound⟩ := Option.isSome_iff_exists.1 hsome
    obtain ⟨market, hmarket, -⟩ := found_sound hserver h hp hfound
    exact ⟨slug, market, hmarket⟩
  · obtain ⟨slug, market, hmarket⟩ := hconcerns
    obtain ⟨e, he, hmem⟩ := hmarket.stored
    unfold RedisClient.found eventLookups
    simp only [← hp, Option.isSome_or, Option.isSome_map, Bool.or_eq_true]
    refine hmarket.matched.imp (fun htoken => ?_) fun hid => ?_
    · exact (isSome_findMarketByTokenId_iff hserver h p _).2
        ⟨slug, e, market, he, hmem, htoken⟩
    · exact (isSome_findMarketById_iff hserver h p _).2
        ⟨slug, e, market, he, hmem, hid⟩

-- ================================================================= the run

section Run

variable (D : RustDecimal) (publishChanges : Bool)
  {msgs : List (NormalizedOrderbook × Int)}

/-- The service on a database of events. -/
def eventService (J : SerdeJson) (server : RedisServer) (db : Database)
    (publishChanges : Bool) : OrderbookService :=
  ⟨some (eventLookups J server db), publishChanges⟩

/-- After any run, a market's record is made of a stored market that
concerns some message of it. -/
theorem cached_run_sound (hserver : server.Lawful)
    (h : Stored J db events)
    (hplain : ∀ msg ∈ msgs, ∃ p : Platform, p.name = msg.1.platform)
    {m : String} {metadata : MarketMetadata}
    (hcached : ((eventService J server db publishChanges).run D .new
      msgs).1.getCachedMarketMetadata m = some metadata) :
    ∃ msg ∈ msgs, msg.1.marketId = m ∧
      ∃ p slug market, Concerns J events msg.1 p slug market
        ∧ metadata
          = metadataOf p.name (slug, ⟨market.id, market.question⟩) := by
  unfold eventService at hcached
  rw [cached_run] at hcached
  obtain ⟨⟨platform, slug, seen⟩, hknown, rfl⟩ :=
    Option.map_eq_some_iff.1 hcached
  obtain ⟨_, hmem, hone⟩ := List.exists_of_findSome?_eq_some hknown
  obtain ⟨msg, hmsg, rfl⟩ := List.mem_map.1 hmem
  obtain ⟨hmarketId, hone⟩ := Option.ite_none_right_eq_some.1 hone
  obtain ⟨⟨_, _⟩, hfound, heq⟩ := Option.map_eq_some_iff.1 hone
  cases heq
  obtain ⟨p, hp⟩ := hplain msg hmsg
  obtain ⟨market, hmarket, rfl⟩ := found_sound hserver h hp hfound
  exact ⟨msg, hmsg, hmarketId, p, _, market, hmarket, by rw [hp]⟩

/-- After any run, a market has a record exactly when something stored
concerns some message of it. -/
theorem isSome_cached_run_iff (hserver : server.Lawful)
    (h : Stored J db events)
    (hplain : ∀ msg ∈ msgs, ∃ p : Platform, p.name = msg.1.platform)
    (m : String) :
    (((eventService J server db publishChanges).run D .new
        msgs).1.getCachedMarketMetadata m).isSome = true
      ↔ ∃ msg ∈ msgs, msg.1.marketId = m
        ∧ ∃ p slug market, Concerns J events msg.1 p slug market := by
  refine ⟨fun hsome => ?_, fun hconcerns => ?_⟩
  · obtain ⟨metadata, hcached⟩ := Option.isSome_iff_exists.1 hsome
    obtain ⟨msg, hmsg, hm, p, slug, market, hmarket, -⟩ :=
      cached_run_sound D publishChanges hserver h hplain hcached
    exact ⟨msg, hmsg, hm, p, slug, market, hmarket⟩
  · obtain ⟨msg, hmsg, hm, p, hmarket⟩ := hconcerns
    have hp : p.name = msg.1.platform := by
      obtain ⟨slug, market, hmarket⟩ := hmarket
      exact hmarket.platform
    have hfound := (isSome_found_iff hserver h hp).2 hmarket
    unfold eventService
    rw [cached_run, Option.isSome_map]
    unfold RedisClient.firstKnown
    rw [List.findSome?_isSome_iff]
    refine ⟨msg.1, List.mem_map_of_mem hmsg, ?_⟩
    rw [RedisClient.known, if_pos hm, Option.isSome_map]
    exact hfound

end Run

end Wup.ExternalServices
