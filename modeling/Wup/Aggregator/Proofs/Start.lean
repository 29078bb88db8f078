/-
The aggregator starts with the tokens of the stored events.

What it lists are the slugs the event service has a record of, each once
(`exists_slugs`), and the tokens it reads of each are those of the event
stored last. So after any run of the event service it subscribes to just
these, with as many ids as there are mappings, and no worker has more than
it has room for (`aggregator_start`). If the market ids of an event are
distinct, they are also just the tokens for which the orderbook service
finds a market (`subscribed_iff_known`).
-/
import Wup.Aggregator.Proofs.Distribution
import Wup.Aggregator.Start
import Wup.EventService.Proofs.Service

namespace Wup.Aggregator

open EventService (Service ServiceAction Holds Serves Entry last stored
  storedEvents stored_of_holds)
open ExternalServices
open SharedRedisClient

variable {J : SerdeJson} {texts : ErrorTexts} {server : RedisServer}
  {s : Service}

-- ============================================================== the events

/-- Listed events of the platform give their slugs. -/
theorem platformEvents_map (slugs : List String) :
    platformEvents serviceName (slugs.map fun slug => "polymarket:" ++ slug)
      = slugs := by
  have hstart : serviceName ++ ":" = "polymarket:" := by decide
  have hall : ∀ e ∈ slugs.map fun slug => "polymarket:" ++ slug,
      ("polymarket:").toList.isPrefixOf e.toList = true := by
    refine List.forall_mem_map.2 fun slug _ => ?_
    rw [String.toList_append]
    exact List.isPrefixOf_iff_prefix.2 (List.prefix_append ..)
  unfold platformEvents
  rw [hstart, List.filter_eq_self.2 hall, List.map_map]
  refine (List.map_congr_left fun slug _ => ?_).trans (List.map_id slugs)
  rw [Function.comp_apply, EventService.stripPrefix_append]
  rfl

/-- What is listed are the slugs with a record, each once. -/
theorem exists_slugs (h : Serves J texts server s) :
    ∃ slugs : List String, slugs.Nodup
      ∧ (∀ slug, slug ∈ slugs ↔ (last slug s.history).isSome = true)
      ∧ listEvents server s.db
        = slugs.map fun slug => "polymarket:" ++ slug := by
  have hlisted : ∀ key ∈ listEvents server s.db,
      key = "polymarket:" ++ (stripPrefix "polymarket:" key).getD key := by
    intro key hkey
    obtain ⟨slug, -, rfl⟩ := (h.listed key).1 hkey
    rw [EventService.stripPrefix_append]
    rfl
  have hmap : listEvents server s.db
      = ((listEvents server s.db).map fun key =>
          (stripPrefix "polymarket:" key).getD key).map
            fun slug => "polymarket:" ++ slug := by
    rw [List.map_map]
    conv_lhs => rw [← List.map_id (listEvents server s.db)]
    exact List.map_congr_left fun key hkey => hlisted key hkey
  refine ⟨_, ?_, fun slug => ?_, hmap⟩
  · have hnodup : (listEvents server s.db).Nodup := h.listed_once
    rw [hmap] at hnodup
    exact hnodup.of_map
  · rw [List.mem_map]
    constructor
    · rintro ⟨key, hkey, rfl⟩
      obtain ⟨slug, hslug, rfl⟩ := (h.listed key).1 hkey
      rw [EventService.stripPrefix_append]
      exact hslug
    · intro hslug
      refine ⟨"polymarket:" ++ slug, (h.listed _).2 ⟨slug, hslug, rfl⟩, ?_⟩
      rw [EventService.stripPrefix_append]
      rfl

-- ============================================================== the tokens

/-- The tokens of the event stored last for a slug. -/
def tokensOf (J : SerdeJson) (s : Service) (slug : String) :
    List ExternalServices.TokenMapping :=
  ((last slug s.history).map fun e => extractTokenMappings J e.event).getD []

theorem fetchAllTokenMappings_eq (hserves : Serves J texts server s)
    (h : Holds J s) (hread : ∀ e ∈ s.history, e.Reads J) :
    ∃ slugs : List String, slugs.Nodup
      ∧ (∀ slug, slug ∈ slugs ↔ (last slug s.history).isSome = true)
      ∧ fetchAllTokenMappings J texts server s.db serviceName
        = slugs.flatMap (tokensOf J s) := by
  obtain ⟨slugs, hnodup, hmem, hlist⟩ := exists_slugs hserves
  refine ⟨slugs, hnodup, hmem, ?_⟩
  unfold fetchAllTokenMappings
  rw [hlist, platformEvents_map]
  refine List.flatMap_congr fun slug hslug => ?_
  obtain ⟨e, he⟩ := Option.isSome_iff_exists.1 ((hmem slug).1 hslug)
  have hlookup := h.lookup slug
  rw [he] at hlookup
  have hevent : getEvent J texts s.db "polymarket" slug
      = .ok (some (e.data J)) :=
    EventService.getEvent_of_lookup (hread e (EventService.mem_of_last he).1)
      hlookup
  unfold tokensOf getTokenMappings serviceName
  rw [hevent, he]
  rfl

/-- A list that is new to the workers is distributed, none of them
overfull. -/
theorem exists_startedPool (J : SerdeJson) (texts : ErrorTexts)
    (server : RedisServer) (db : Database) (o : Occasion) :
    ∃ p, startedPool J texts server db o = some p
      ∧ p.allIds = ((fetchAllTokenMappings J texts server db serviceName).map
          ExternalServices.TokenMapping.clobTokenId : List String)
      ∧ ∀ worker ids, p.Has worker ids → ids.length ≤ 50 := by
  unfold startedPool
  generalize fetchAllTokenMappings J texts server db serviceName = tokens
  by_cases hempty : tokens = []
  · rw [hempty]
    exact ⟨.new 50, rfl, rfl, Pool.fits_new 50⟩
  · have hsome : ((Pool.new 50).distribute TokenMapping.clobTokenId o
        (tokens.map .ofStored)).isSome = true :=
      Pool.distribute_isSome _ (by decide)
    obtain ⟨p, hp⟩ := Option.isSome_iff_exists.1 hsome
    have hgrown := Pool.distribute_grown _ (Pool.fresh_new 50) hp
    have hall := hgrown.all
    -- nobody is subscribed before, so all of them are new
    have hnew : (Pool.new 50).newIds
        ((tokens.map TokenMapping.ofStored).map TokenMapping.clobTokenId)
          = tokens.map ExternalServices.TokenMapping.clobTokenId := by
      rw [List.map_map]
      exact List.filter_eq_self.2 fun _ _ => rfl
    rw [hnew, Multiset.coe_nil, add_zero] at hall
    refine ⟨p, by simp only [if_neg hempty]; exact hp, ?_, ?_⟩
    · rw [hall]
      exact zero_add _
    · have hfits := hgrown.fits (Pool.fits_new 50)
      unfold Pool.Fits at hfits
      rwa [hgrown.max] at hfits

/-- After any run of the event service the aggregator starts, with the
tokens of the events stored last: as many ids over all workers as there
are mappings, none of anything else, and no more at a worker than it has
room for. -/
theorem aggregator_start (hserver : server.Lawful)
    {actions : List ServiceAction}
    (hrun : Service.run J texts server .start actions = some s)
    (hread : ∀ e ∈ s.history, e.Reads J) (o : Occasion) :
    ∃ p, startedPool J texts server s.db o = some p
      ∧ (∃ slugs : List String, slugs.Nodup
        ∧ (∀ slug, slug ∈ slugs ↔ (last slug s.history).isSome = true)
        ∧ p.allIds = ((slugs.flatMap (tokensOf J s)).map
            ExternalServices.TokenMapping.clobTokenId : List String))
      ∧ ∀ worker ids, p.Has worker ids → ids.length ≤ 50 := by
  obtain ⟨hholds, -⟩ := EventService.holds_run hserver hrun
  have hserves : Serves J texts server s := hholds.serves hserver hread
  obtain ⟨slugs, hnodup, hmem, hmappings⟩ :=
    fetchAllTokenMappings_eq hserves hholds hread
  obtain ⟨p, hp, hall, hfits⟩ := exists_startedPool J texts server s.db o
  rw [hmappings] at hall
  exact ⟨p, hp, ⟨slugs, hnodup, hmem, hall⟩, hfits⟩

/-- With one event stored it starts with the two tokens of it. -/
theorem aggregator_start_one_event :
    ∃ s p, Service.run compactJson ⟨id, id⟩ simpleServer .start
          EventService.oneEvent = some s
      ∧ startedPool compactJson ⟨id, id⟩ simpleServer s.db
          ⟨.stored, fun _ => false⟩ = some p
      ∧ p.allIds = (["a", "b"] : List String) := by
  obtain ⟨s, hrun, hhistory⟩ := EventService.oneEvent_runs
  have hread : ∀ e ∈ s.history, e.Reads compactJson := by
    rw [hhistory]
    exact List.forall_mem_singleton.2 EventService.twoTokens_reads
  obtain ⟨p, hp, ⟨slugs, hnodup, hmem, hall⟩, -⟩ := aggregator_start
    simpleServer_lawful hrun hread ⟨.stored, fun _ => false⟩
  have hslugs : slugs = ["s"] := by
    have hsubset : ∀ slug, slug ∈ slugs ↔ slug = "s" := by
      intro slug
      rw [hmem, EventService.isSome_last_iff, hhistory]
      simp [EventService.twoTokens, eq_comm]
    exact List.perm_singleton.1 ((List.perm_ext_iff_of_nodup hnodup
      (List.nodup_singleton _)).2 fun slug => by simp [hsubset])
  have htokens : extractTokenMappings compactJson
      EventService.twoTokens.event = [⟨"a", "m", "s"⟩, ⟨"b", "m", "s"⟩] := by
    decide +kernel
  have hof : tokensOf compactJson s "s"
      = [⟨"a", "m", "s"⟩, ⟨"b", "m", "s"⟩] := by
    unfold tokensOf
    rw [hhistory, ← htokens]
    rfl
  refine ⟨s, p, hrun, hp, ?_⟩
  rw [hall, hslugs, List.flatMap_singleton, hof]
  rfl

-- ================================================================== lookup

/-- A token is among those that are read when a market of a stored event
lists it. -/
theorem mem_tokens_iff {slugs : List String}
    (hmem : ∀ slug, slug ∈ slugs ↔ (last slug s.history).isSome = true)
    {tokenId : String} :
    tokenId ∈ (slugs.flatMap (tokensOf J s)).map
        ExternalServices.TokenMapping.clobTokenId
      ↔ ∃ slug e market,
        storedEvents s EventService.polymarket slug = some e
          ∧ Lists J e.event tokenId market := by
  unfold storedEvents
  simp only [if_pos, List.mem_map, List.mem_flatMap, hmem]
  constructor
  · rintro ⟨t, ⟨slug, hslug, ht⟩, rfl⟩
    obtain ⟨e, he⟩ := Option.isSome_iff_exists.1 hslug
    unfold tokensOf at ht
    rw [he] at ht
    obtain ⟨market, hmarket, htoken, -⟩ := mem_extractTokenMappings.1 ht
    exact ⟨slug, stored e, market, by rw [he]; rfl, hmarket, htoken⟩
  · rintro ⟨slug, e, market, he, hmarket, htoken⟩
    obtain ⟨e', he', rfl⟩ := Option.map_eq_some_iff.1 he
    have hslug : (last slug s.history).isSome = true := by
      rw [he']
      rfl
    refine ⟨⟨tokenId, market.id, e'.event.slug⟩, ⟨slug, hslug, ?_⟩, rfl⟩
    unfold tokensOf
    rw [he']
    exact mem_extractTokenMappings.2 ⟨market, hmarket, htoken, rfl, rfl⟩

/-- Where no event has two markets with one id, the tokens that are
subscribed to are just those for which the orderbook service will find a
market in the same database. -/
theorem subscribed_iff_known (hserver : server.Lawful)
    {actions : List ServiceAction}
    (hrun : Service.run J texts server .start actions = some s)
    (hread : ∀ e ∈ s.history, e.Reads J)
    (hdistinct : ∀ e ∈ s.history, (e.event.markets.map (·.id)).Nodup)
    (o : Occasion) :
    ∃ p, startedPool J texts server s.db o = some p
      ∧ ∀ tokenId, p.isSubscribed tokenId = true
        ↔ (findMarketByTokenId J server s.db serviceName tokenId).isSome
          = true := by
  obtain ⟨hholds, -⟩ := EventService.holds_run hserver hrun
  have hstored : Stored J s.db (storedEvents s) :=
    stored_of_holds hholds fun e he => ⟨hdistinct e he, hread e he⟩
  have hserves : Serves J texts server s := hholds.serves hserver hread
  obtain ⟨slugs, -, hmem, hmappings⟩ :=
    fetchAllTokenMappings_eq hserves hholds hread
  obtain ⟨p, hp, hall, -⟩ := exists_startedPool J texts server s.db o
  refine ⟨p, hp, fun tokenId => ?_⟩
  have hknown := isSome_findMarketByTokenId_iff hserver hstored
    EventService.polymarket tokenId
  rw [hmappings] at hall
  rw [Pool.isSubscribed_iff, ← Pool.mem_allIds, hall, Multiset.mem_coe,
    mem_tokens_iff hmem]
  exact hknown.symm

/-- The second token of the event: both hold. -/
theorem subscribed_iff_known_one_event :
    ∃ s p, Service.run compactJson ⟨id, id⟩ simpleServer .start
          EventService.oneEvent = some s
      ∧ startedPool compactJson ⟨id, id⟩ simpleServer s.db
          ⟨.stored, fun _ => false⟩ = some p
      ∧ p.isSubscribed "b" = true := by
  obtain ⟨s, hrun, hhistory⟩ := EventService.oneEvent_runs
  have hread : ∀ e ∈ s.history, e.Reads compactJson := by
    rw [hhistory]
    exact List.forall_mem_singleton.2 EventService.twoTokens_reads
  have hdistinct : ∀ e ∈ s.history,
      (e.event.markets.map (·.id)).Nodup := by
    rw [hhistory]
    exact List.forall_mem_singleton.2 (by decide)
  obtain ⟨p, hp, hiff⟩ := subscribed_iff_known simpleServer_lawful hrun
    hread hdistinct ⟨.stored, fun _ => false⟩
  refine ⟨s, p, hrun, hp, (hiff "b").2 ?_⟩
  obtain ⟨hholds, -⟩ := EventService.holds_run simpleServer_lawful hrun
  obtain ⟨hstored, hevent⟩ := EventService.twoTokens_stored hholds hhistory
  exact (isSome_findMarketByTokenId_iff simpleServer_lawful hstored
    EventService.polymarket "b").2
      ⟨"s", _, _, hevent, EventService.twoTokens_lists⟩

end Wup.Aggregator
