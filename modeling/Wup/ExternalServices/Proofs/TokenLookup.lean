/-
Token lookup finds what the event service stores.

`Stored` says what the keys of a database's events hold: the record of
some event, for each platform and slug, whatever else is in the database.
Storing an event keeps it (`Stored.storeEvent`).

A platform's name has no colon, so an event's key can be taken apart in
one way only, and no character a pattern gives a meaning to, so the
pattern of a search finds that platform's keys (`mem_keys_iff`). The loop
of the searches then says: something is found exactly when something is
found in some stored event, and what is found is found in the event under
its slug (`findMarket_sound`, `isSome_findMarket_iff`), in every order of
the keys.

Within one event the two lists of tokens are tied by the market ids
(`marketOfToken_cases`): a mapping is made for each token of each market,
and the first mapping of a token names a market that lists it. Where the
ids are distinct, the market found under that id is that one.
-/
import Wup.ExternalServices.Proofs.Records
import Wup.ExternalServices.RedisClient

namespace Wup.ExternalServices

open SharedRedisClient

variable {J : SerdeJson}

-- ================================================================ the keys

/-- A name without a colon and without pattern characters. -/
structure Platform where
  name : String
  plain : ∀ c ∈ name.toList, c ≠ ':' ∧ isGlobChar c = false
deriving DecidableEq

theorem Platform.ext_name {p q : Platform} (h : p.name = q.name) :
    p = q := by
  cases p
  cases q
  cases h
  rfl

/-- Lists that go on after their first colons. -/
theorem append_colon_inj {as bs cs ds : List Char} (ha : ':' ∉ as)
    (hb : ':' ∉ bs) (h : as ++ ':' :: cs = bs ++ ':' :: ds) :
    as = bs ∧ cs = ds := by
  induction as generalizing bs with
  | nil =>
      cases bs with
      | nil => exact ⟨rfl, (List.cons.inj h).2⟩
      | cons b bs =>
          rw [List.nil_append, List.cons_append] at h
          exact absurd ((List.cons.inj h).1 ▸ List.mem_cons_self ..) hb
  | cons a as ih =>
      cases bs with
      | nil =>
          rw [List.nil_append, List.cons_append] at h
          exact absurd ((List.cons.inj h).1 ▸ List.mem_cons_self ..) ha
      | cons b bs =>
          rw [List.cons_append, List.cons_append] at h
          obtain ⟨rfl, htail⟩ := List.cons.inj h
          obtain ⟨rfl, rfl⟩ := ih (fun hm => ha (.tail _ hm))
            (fun hm => hb (.tail _ hm)) htail
          exact ⟨rfl, rfl⟩

theorem toList_eventKey (platform slug : String) :
    (eventKey platform slug).toList
      = eventKeyPrefix.toList
        ++ (platform.toList ++ ':' :: slug.toList) := by
  simp [eventKey, platformPrefix]

/-- A key is the event's of one platform and one slug. -/
theorem eventKey_inj {p q : Platform} {slug slug' : String}
    (h : eventKey p.name slug = eventKey q.name slug') :
    p = q ∧ slug = slug' := by
  have hlist := congrArg String.toList h
  rw [toList_eventKey, toList_eventKey] at hlist
  obtain ⟨hname, hslug⟩ := append_colon_inj
    (fun hm => (p.plain ':' hm).1 rfl) (fun hm => (q.plain ':' hm).1 rfl)
    (List.append_cancel_left hlist)
  exact ⟨Platform.ext_name (String.toList_inj.1 hname),
    String.toList_inj.1 hslug⟩

/-- The slug of an event's key. -/
theorem slugOf_eventKey (platform slug : String) :
    slugOf platform (eventKey platform slug) = slug := by
  unfold slugOf stripPrefix eventKey
  rw [String.toList_append, if_pos, List.drop_left, String.ofList_toList]
  · rfl
  · exact List.isPrefixOf_iff_prefix.2 (List.prefix_append ..)

theorem platformPrefix_plain (p : Platform) :
    ∀ c ∈ (platformPrefix p.name).toList, isGlobChar c = false := by
  have hstart : ∀ c ∈ "event:".toList, isGlobChar c = false := by
    simp [isGlobChar]
  have hcolon : ∀ c ∈ ":".toList, isGlobChar c = false := by
    simp [isGlobChar]
  intro c hc
  rw [platformPrefix, eventKeyPrefix, String.toList_append,
    String.toList_append, List.mem_append, List.mem_append] at hc
  rcases hc with (hc | hc) | hc
  · exact hstart c hc
  · exact (p.plain c hc).2
  · exact hcolon c hc

/-- The pattern of a search finds the keys of the platform's events. -/
theorem mem_keys_iff {server : RedisServer} (hserver : server.Lawful)
    {db : Database} {p : Platform} {key : String} :
    key ∈ server.keys db (platformPrefix p.name ++ "*")
      ↔ (db.lookup key).isSome = true
        ∧ ∃ slug, key = eventKey p.name slug := by
  unfold RedisServer.keys
  rw [List.mem_filter, hserver.matches_star _ _ (platformPrefix_plain p),
    ← AList.mem_keys, AList.lookup_isSome]
  refine and_congr_right fun _ => ⟨fun h => ?_, fun h => ?_⟩
  · obtain ⟨rest, hrest⟩ := h
    refine ⟨String.ofList rest, String.toList_inj.1 ?_⟩
    rw [← hrest, eventKey, String.toList_append, String.toList_ofList]
  · obtain ⟨slug, rfl⟩ := h
    rw [eventKey, String.toList_append]
    exact List.prefix_append ..

-- ========================================================== what is stored

/-- An event as it was stored, and when. -/
structure StoredEvent where
  event : Event
  storedAt : Int

/-- The record stored of an event. -/
def StoredEvent.data (J : SerdeJson) (e : StoredEvent) : EventData :=
  .fromEvent J e.event e.storedAt

/-- An event the service may store: no two of its markets share an id, and
its record is read back as it was written. -/
structure StoredEvent.Sound (J : SerdeJson) (e : StoredEvent) : Prop where
  distinct : (e.event.markets.map (·.id)).Nodup
  roundTrip : EventData.fromStr J ((e.data J).toString J)
    = some (e.data J)

/-- The events of a database, by platform and slug. -/
abbrev Events := Platform → String → Option StoredEvent

/-- Under the keys of events stand the records of these events. -/
structure Stored (J : SerdeJson) (db : Database) (events : Events) :
    Prop where
  lookup : ∀ p slug, db.lookup (eventKey p.name slug)
    = (events p slug).map fun e => (e.data J).toString J
  sound : ∀ p slug e, events p slug = some e → e.Sound J

theorem Stored.empty : Stored J ∅ fun _ _ => none where
  lookup _ _ := rfl
  sound _ _ _ h := nomatch h

/-- The events after one more is stored. -/
def Events.set (events : Events) (p : Platform) (slug : String)
    (e : StoredEvent) : Events :=
  fun p' slug' => if p' = p ∧ slug' = slug then some e else events p' slug'

section Writes

variable {db : Database} {events : Events}

/-- Storing an event replaces what was stored under its slug. -/
theorem Stored.storeEvent (h : Stored J db events) (p : Platform)
    (slug : String) {e : StoredEvent} (he : e.Sound J) :
    Stored J (storeEvent J db p.name slug (e.data J))
      (events.set p slug e) where
  lookup p' slug' := by
    unfold SharedRedisClient.storeEvent Events.set
    rw [HashMap.lookup_insert', h.lookup]
    by_cases hkey : p' = p ∧ slug' = slug
    · rw [if_pos hkey, if_pos (by rw [hkey.1, hkey.2]), Option.map_some]
    · rw [if_neg hkey, if_neg fun hsame => hkey (eventKey_inj hsame)]
  sound p' slug' e' hstored := by
    unfold Events.set at hstored
    split at hstored
    · exact Option.some.inj hstored ▸ he
    · exact h.sound p' slug' e' hstored

end Writes

-- ============================================================== the search

section Search

variable {server : RedisServer} {db : Database} {events : Events}
  {pick : EventData → Option MarketData}

/-- What the loop finds under the key of an event. -/
theorem found_at_key (h : Stored J db events) (p : Platform)
    (slug : String) (pick : EventData → Option MarketData) :
    ((db.lookup (eventKey p.name slug)).bind fun json =>
        (EventData.fromStr J json).bind fun eventData =>
          (pick eventData).map fun market =>
            (slugOf p.name (eventKey p.name slug), market))
      = (events p slug).bind fun e =>
          (pick (e.data J)).map fun market => (slug, market) := by
  rw [h.lookup, slugOf_eventKey]
  cases he : events p slug with
  | none => rfl
  | some e =>
      rw [Option.map_some, Option.bind_some, (h.sound p slug e he).roundTrip]
      rfl

/-- What is found is found in the event stored under its slug. -/
theorem findMarket_sound (hserver : server.Lawful) (h : Stored J db events)
    {p : Platform} {slug : String} {market : MarketData}
    (hfound : findMarket J server db p.name pick = some (slug, market)) :
    ∃ e, events p slug = some e ∧ pick (e.data J) = some market := by
  obtain ⟨key, hkey, hat⟩ := List.exists_of_findSome?_eq_some hfound
  obtain ⟨-, slug', rfl⟩ := (mem_keys_iff hserver).1 hkey
  rw [found_at_key h] at hat
  obtain ⟨e, he, hpick⟩ := Option.bind_eq_some_iff.1 hat
  obtain ⟨market', hmarket, heq⟩ := Option.map_eq_some_iff.1 hpick
  obtain ⟨rfl, rfl⟩ := Prod.mk.inj heq
  exact ⟨e, he, hmarket⟩

/-- Something is found exactly when it is found in some event. -/
theorem isSome_findMarket_iff (hserver : server.Lawful)
    (h : Stored J db events) (p : Platform) :
    (findMarket J server db p.name pick).isSome = true
      ↔ ∃ slug e, events p slug = some e
        ∧ (pick (e.data J)).isSome = true := by
  unfold findMarket
  rw [List.findSome?_isSome_iff]
  refine ⟨fun hfound => ?_, fun hfound => ?_⟩
  · obtain ⟨key, hkey, hat⟩ := hfound
    obtain ⟨-, slug, rfl⟩ := (mem_keys_iff hserver).1 hkey
    rw [found_at_key h] at hat
    cases he : events p slug with
    | none =>
        rw [he] at hat
        cases hat
    | some e =>
        rw [he, Option.bind_some, Option.isSome_map] at hat
        exact ⟨slug, e, he, hat⟩
  · obtain ⟨slug, e, he, hpick⟩ := hfound
    refine ⟨eventKey p.name slug, (mem_keys_iff hserver).2 ⟨?_, slug, rfl⟩,
      ?_⟩
    · rw [h.lookup, he]
      rfl
    · rw [found_at_key h, he, Option.bind_some, Option.isSome_map]
      exact hpick

end Search

-- =============================================================== one event

theorem mem_extractTokenMappings {event : Event} {t : TokenMapping} :
    t ∈ extractTokenMappings J event
      ↔ ∃ market ∈ event.markets, t.clobTokenId ∈ market.clobTokenIds J
        ∧ t.marketId = market.id ∧ t.eventSlug = event.slug := by
  unfold extractTokenMappings
  rw [List.mem_flatMap]
  refine exists_congr fun market => and_congr_right fun _ => ?_
  rw [List.mem_map]
  refine ⟨fun h => ?_, fun h => ?_⟩
  · obtain ⟨id, hid, rfl⟩ := h
    exact ⟨hid, rfl, rfl⟩
  · obtain ⟨hid, hmarket, hslug⟩ := h
    obtain ⟨id, marketId, slug⟩ := t
    subst hmarket hslug
    exact ⟨id, hid, rfl⟩

/-- The market lists the token. -/
def Lists (J : SerdeJson) (event : Event) (tokenId : String)
    (market : Market) : Prop :=
  market ∈ event.markets ∧ tokenId ∈ market.clobTokenIds J

/-- A token has a mapping exactly when some market lists it, and what is
found has the id of one that does. -/
theorem marketOfToken_cases (event : Event) (now : Int) (tokenId : String) :
    (∃ listed market, Lists J event tokenId listed ∧ market ∈ event.markets
        ∧ market.id = listed.id
        ∧ marketOfToken tokenId (.fromEvent J event now)
          = some (.fromMarket J market))
      ∨ (¬ ∃ market, Lists J event tokenId market)
        ∧ marketOfToken tokenId (.fromEvent J event now) = none := by
  unfold marketOfToken
  cases hfind : (EventData.fromEvent J event now).tokens.find?
      fun t => t.clobTokenId = tokenId with
  | none =>
      refine Or.inr ⟨fun hlists => ?_, rfl⟩
      obtain ⟨market, hmarket, htoken⟩ := hlists
      have hmapping : (⟨tokenId, market.id, event.slug⟩ : TokenMapping)
          ∈ extractTokenMappings J event :=
        mem_extractTokenMappings.2 ⟨market, hmarket, htoken, rfl, rfl⟩
      simpa using List.find?_eq_none.1 hfind _ hmapping
  | some mapping =>
      have htoken : mapping.clobTokenId = tokenId := by
        simpa using List.find?_some hfind
      obtain ⟨listed, hlisted, hlists, hid, -⟩ :=
        mem_extractTokenMappings.1 (List.mem_of_find?_eq_some hfind)
      have hsome : (event.markets.find?
          fun m => m.id = listed.id).isSome = true :=
        List.find?_isSome.2 ⟨listed, hlisted, decide_eq_true rfl⟩
      obtain ⟨market, hmarket⟩ := Option.isSome_iff_exists.1 hsome
      have hsame : market.id = listed.id := by
        simpa using List.find?_some hmarket
      refine Or.inl ⟨listed, market, ⟨hlisted, htoken ▸ hlists⟩,
        List.mem_of_find?_eq_some hmarket, hsame, ?_⟩
      rw [Option.bind_some, hid]
      show ((event.markets.map (MarketData.fromMarket J)).find?
        fun m => m.id = listed.id) = _
      rw [List.find?_map]
      exact congrArg (Option.map _) hmarket

/-- Where the ids are distinct, what is found lists the token. -/
theorem marketOfToken_fromEvent {event : Event}
    (hdistinct : (event.markets.map (·.id)).Nodup) (now : Int)
    (tokenId : String) :
    (∃ market, Lists J event tokenId market
        ∧ marketOfToken tokenId (.fromEvent J event now)
          = some (.fromMarket J market))
      ∨ (¬ ∃ market, Lists J event tokenId market)
        ∧ marketOfToken tokenId (.fromEvent J event now) = none := by
  refine (marketOfToken_cases event now tokenId).imp_left fun h => ?_
  obtain ⟨listed, market, hlists, hmarket, hid, hpick⟩ := h
  obtain rfl : market = listed :=
    List.inj_on_of_nodup_map hdistinct hmarket hlists.1 hid
  exact ⟨market, hlists, hpick⟩

-- ============================================================== the lookup

section Lookup

variable {server : RedisServer} {db : Database} {events : Events}

/-- A search for a token finds something exactly when some event lists it. -/
theorem isSome_findMarketByTokenId_iff (hserver : server.Lawful)
    (h : Stored J db events) (p : Platform) (tokenId : String) :
    (findMarketByTokenId J server db p.name tokenId).isSome = true
      ↔ ∃ slug e market, events p slug = some e
        ∧ Lists J e.event tokenId market := by
  unfold findMarketByTokenId
  rw [isSome_findMarket_iff hserver h]
  refine exists_congr fun slug => exists_congr fun e => ?_
  rw [exists_and_left]
  refine and_congr_right fun he => ?_
  rcases @marketOfToken_fromEvent J e.event (h.sound p slug e he).distinct
      e.storedAt tokenId with ⟨market, hlists, hpick⟩ | ⟨hnone, hpick⟩
  · exact iff_of_true (by rw [StoredEvent.data, hpick]; rfl)
      ⟨market, hlists⟩
  · exact iff_of_false (by rw [StoredEvent.data, hpick]; simp) hnone

/-- What a search for a token finds lists it. -/
theorem findMarketByTokenId_sound (hserver : server.Lawful)
    (h : Stored J db events) {p : Platform} {tokenId slug : String}
    {found : MarketData}
    (hfound : findMarketByTokenId J server db p.name tokenId
      = some (slug, found)) :
    ∃ e market, events p slug = some e ∧ Lists J e.event tokenId market
      ∧ found = .fromMarket J market := by
  obtain ⟨e, he, hpick⟩ := findMarket_sound hserver h hfound
  rcases @marketOfToken_fromEvent J e.event (h.sound p slug e he).distinct
      e.storedAt tokenId with ⟨market, hlists, hmarket⟩ | ⟨-, hnone⟩
  · rw [StoredEvent.data, hmarket] at hpick
    exact ⟨e, market, he, hlists, (Option.some.inj hpick).symm⟩
  · rw [StoredEvent.data, hnone] at hpick
    cases hpick

/-- A search for a market finds something exactly when some event has it. -/
theorem isSome_findMarketById_iff (hserver : server.Lawful)
    (h : Stored J db events) (p : Platform) (marketId : String) :
    (findMarketById J server db p.name marketId).isSome = true
      ↔ ∃ slug e market, events p slug = some e
        ∧ market ∈ e.event.markets ∧ market.id = marketId := by
  unfold findMarketById
  rw [isSome_findMarket_iff hserver h]
  refine exists_congr fun slug => exists_congr fun e => ?_
  rw [exists_and_left]
  refine and_congr_right fun _ => ?_
  rw [List.find?_isSome]
  show (∃ m ∈ e.event.markets.map (MarketData.fromMarket J), _) ↔ _
  simp [MarketData.fromMarket]

/-- What a search for a market finds has the id. -/
theorem findMarketById_sound (hserver : server.Lawful)
    (h : Stored J db events) {p : Platform} {marketId slug : String}
    {found : MarketData}
    (hfound : findMarketById J server db p.name marketId
      = some (slug, found)) :
    ∃ e market, events p slug = some e ∧ market ∈ e.event.markets
      ∧ market.id = marketId ∧ found = .fromMarket J market := by
  obtain ⟨e, he, hpick⟩ := findMarket_sound hserver h hfound
  obtain ⟨market, hmarket, rfl⟩ :=
    List.mem_map.1 (List.mem_of_find?_eq_some hpick)
  have hid := List.find?_some hpick
  exact ⟨e, market, he, hmarket, of_decide_eq_true hid, rfl⟩

end Lookup

/-- Token lookup finds a market exactly when some market of an event
stored for the platform lists the token, and what it finds is a market of
the event stored under the slug it returns, and lists the token. -/
theorem token_lookup {server : RedisServer} (hserver : server.Lawful)
    {db : Database} {events : Events} (h : Stored J db events)
    (p : Platform) (tokenId : String) :
    ((findMarketByTokenId J server db p.name tokenId).isSome = true
        ↔ ∃ slug e market, events p slug = some e
          ∧ Lists J e.event tokenId market)
      ∧ ∀ slug found,
        findMarketByTokenId J server db p.name tokenId
            = some (slug, found) →
          ∃ e market, events p slug = some e
            ∧ Lists J e.event tokenId market
            ∧ found = .fromMarket J market :=
  ⟨isSome_findMarketByTokenId_iff hserver h p tokenId,
    fun _ _ hfound => findMarketByTokenId_sound hserver h hfound⟩

/-- A market that lists some tokens. -/
private def marketWith (id tokens : String) : Market where
  id := id
  question := none
  slug := none
  clobTokenIdsRaw := some tokens
  outcomes := none
  outcomePrices := none
  bestBid := none
  bestAsk := none
  volume := none
  liquidity := none
  active := true
  closed := false

/-- An event with two markets that share a token. -/
private def sharingEvent (id slug : String) : StoredEvent where
  event :=
    { id := id
      slug := slug
      title := ""
      description := none
      active := true
      closed := false
      markets :=
        [marketWith "1" "[\"x\", \"y\"]", marketWith "2" "[\"y\"]"] }
  storedAt := 7

private theorem sharingEvent_sound (id slug : String) :
    (sharingEvent id slug).Sound compactJson where
  distinct := by simp [sharingEvent, marketWith]
  roundTrip := by
    refine EventData.fromStr_toString compactJson_lawful ?_ ?_ ?_
    · simp [StoredEvent.data, EventData.fromEvent, sharingEvent,
        MarketData.fromMarket, marketWith]
    · exact (by decide : (2 : Int) < 2 ^ 63)
    · exact (by decide : -2 ^ 63 ≤ (7 : Int) ∧ (7 : Int) < 2 ^ 63)

/-- Two events, the one's slug with a colon. -/
private def sharingDb : Database :=
  storeEvent compactJson
    (storeEvent compactJson ∅ "polymarket" "a:b"
      ((sharingEvent "e1" "a:b").data compactJson))
    "polymarket" "c" ((sharingEvent "e2" "c").data compactJson)

/-- The token is in two markets of either event: one of them is found,
under its event's slug. -/
theorem token_lookup_shared :
    ∃ slug found,
      findMarketByTokenId compactJson simpleServer sharingDb "polymarket" "y"
          = some (slug, found)
        ∧ slug ∈ ["a:b", "c"] ∧ "y" ∈ found.clobTokenIds := by
  let p : Platform := ⟨"polymarket", by simp [isGlobChar]⟩
  have hstored := (Stored.empty.storeEvent p "a:b"
    (sharingEvent_sound "e1" "a:b")).storeEvent p "c"
      (sharingEvent_sound "e2" "c")
  obtain ⟨hfinds, hsound⟩ :=
    token_lookup simpleServer_lawful hstored p "y"
  have hlisted : Lists compactJson (sharingEvent "e1" "a:b").event "y"
      (marketWith "1" "[\"x\", \"y\"]") :=
    ⟨by simp [sharingEvent], by decide +kernel⟩
  have hsome := hfinds.2 ⟨"a:b", _, _, by simp [Events.set], hlisted⟩
  obtain ⟨⟨slug, found⟩, hfound⟩ := Option.isSome_iff_exists.1 hsome
  obtain ⟨e, market, he, hlists, rfl⟩ := hsound slug found hfound
  refine ⟨slug, _, hfound, ?_, hlists.2⟩
  by_cases hc : slug = "c"
  · simp [hc]
  · by_cases hab : slug = "a:b"
    · simp [hab]
    · simp [Events.set, hc, hab] at he

end Wup.ExternalServices
