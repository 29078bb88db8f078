/-
The event service answers with what it stored last.

A key of an event is the platform's and one slug's, so what is stored
under it is the last record stored for the slug, and the keys of an event
are those of the slugs with a record (`Holds`); what other services write
lies under other keys. Every step keeps this (`Holds.step`). A pass only
comes to slugs with a record, so nothing is ever stored that was not asked
for (`service_serves`).
-/
import Wup.EventService.Service
import Wup.ExternalServices.Proofs.TokenLookup

namespace Wup.EventService

open ExternalServices
open SharedRedisClient

variable {J : SerdeJson} {texts : ErrorTexts} {server : RedisServer}

-- ================================================================= history

/-- The record that is stored of an entry. -/
def Entry.data (J : SerdeJson) (e : Entry) : EventData :=
  .fromEvent J e.event e.storedAt

/-- The last entry of a slug. -/
def last (slug : String) (history : List Entry) : Option Entry :=
  history.reverse.find? fun e => e.slug = slug

theorem last_concat (slug : String) (history : List Entry) (e : Entry) :
    last slug (history ++ [e])
      = if e.slug = slug then some e else last slug history := by
  unfold last
  rw [List.reverse_append, List.reverse_singleton, List.singleton_append,
    List.find?_cons]
  by_cases h : e.slug = slug
  · simp [h]
  · simp [h]

theorem mem_of_last {slug : String} {history : List Entry} {e : Entry}
    (h : last slug history = some e) : e ∈ history ∧ e.slug = slug :=
  ⟨List.mem_reverse.1 (List.mem_of_find?_eq_some h),
    by simpa using List.find?_some h⟩

theorem isSome_last_iff {slug : String} {history : List Entry} :
    (last slug history).isSome = true ↔ ∃ e ∈ history, e.slug = slug := by
  unfold last
  rw [List.find?_isSome]
  simp

-- ==================================================================== keys

/-- The platform whose events the service keeps. -/
def polymarket : Platform := ⟨"polymarket", by simp [isGlobChar]⟩

theorem stripPrefix_append (start rest : String) :
    stripPrefix start (start ++ rest) = some rest := by
  unfold stripPrefix
  rw [String.toList_append, if_pos, List.drop_left, String.ofList_toList]
  exact List.isPrefixOf_iff_prefix.2 (List.prefix_append ..)

theorem eventKey_polymarket (slug : String) :
    eventKey "polymarket" slug
      = eventKeyPrefix ++ ("polymarket:" ++ slug) := by
  simp [eventKey, platformPrefix, String.append_assoc]

/-- A listed event is taken apart as it was put together. -/
theorem splitOnce_polymarket (slug : String) :
    splitOnce ("polymarket:" ++ slug) = some ("polymarket", slug) := by
  have hlist : ("polymarket:" ++ slug).toList
      = "polymarket".toList ++ ':' :: slug.toList := by
    simp
  have hplain : ∀ c ∈ "polymarket".toList, decide (c ≠ ':') = true := by
    simp
  unfold splitOnce
  rw [hlist, List.dropWhile_append_of_pos hplain,
    List.takeWhile_append_of_pos hplain]
  simp

/-- The keys that are listed. -/
theorem mem_eventKeys_iff (hserver : server.Lawful) {db : Database}
    {key : String} :
    key ∈ server.keys db (eventKeyPrefix ++ "*")
      ↔ (db.lookup key).isSome = true
        ∧ eventKeyPrefix.toList <+: key.toList := by
  have hplain : ∀ c ∈ eventKeyPrefix.toList, isGlobChar c = false := by
    simp [eventKeyPrefix, isGlobChar]
  unfold RedisServer.keys
  rw [List.mem_filter, hserver.matches_star _ _ hplain, ← AList.mem_keys,
    AList.lookup_isSome]

-- =============================================================== invariant

/-- The events in the database are the last ones stored, and a pass has
only such events left. -/
structure Holds (J : SerdeJson) (s : Service) : Prop where
  lookup : ∀ slug, s.db.lookup (eventKey "polymarket" slug)
    = (last slug s.history).map fun e => (e.data J).toString J
  keys : ∀ key, eventKeyPrefix.toList <+: key.toList →
    (s.db.lookup key).isSome = true →
      ∃ slug, key = eventKey "polymarket" slug
  pending : ∀ key ∈ s.pending,
    ∃ e ∈ s.history, key = "polymarket:" ++ e.slug

theorem holds_start : Holds J .start where
  lookup _ := rfl
  keys _ _ h := nomatch h
  pending _ h := nomatch h

variable {s : Service}

/-- Nothing is stored for other platforms. -/
theorem Holds.lookup_other (h : Holds J s) {p : Platform}
    (hp : p ≠ polymarket) (slug : String) :
    s.db.lookup (eventKey p.name slug) = none := by
  refine Option.not_isSome_iff_eq_none.1 fun hsome => hp ?_
  have hstart : eventKeyPrefix.toList <+: (eventKey p.name slug).toList := by
    rw [toList_eventKey]
    exact List.prefix_append ..
  obtain ⟨slug', hkey⟩ := h.keys _ hstart hsome
  exact (eventKey_inj (p := p) (q := polymarket) hkey).1

theorem Holds.store (h : Holds J s) (e : Entry) :
    Holds J
      { s with
        db := storeEvent J s.db "polymarket" e.slug (e.data J)
        history := s.history ++ [e] } where
  lookup slug := by
    unfold storeEvent
    rw [HashMap.lookup_insert', last_concat, h.lookup]
    by_cases hslug : e.slug = slug
    · rw [if_pos (by rw [hslug]), if_pos hslug]
      rfl
    · have hkey : eventKey "polymarket" slug
          ≠ eventKey "polymarket" e.slug := fun hkey =>
        hslug (eventKey_inj (p := polymarket) (q := polymarket) hkey).2.symm
      rw [if_neg hkey, if_neg hslug]
  keys key hstart hsome := by
    unfold storeEvent at hsome
    rw [HashMap.lookup_insert'] at hsome
    split at hsome
    · next hkey => exact ⟨e.slug, hkey⟩
    · exact h.keys key hstart hsome
  pending key hkey := by
    obtain ⟨e', he', hkey'⟩ := h.pending key hkey
    exact ⟨e', List.mem_append_left _ he', hkey'⟩

/-- A write under a key of another kind. -/
theorem Holds.insert_other (h : Holds J s) {key : String}
    (hkey : ¬ eventKeyPrefix.toList <+: key.toList) (text : String) :
    Holds J { s with db := s.db.insert key text } where
  lookup slug := by
    have hne : eventKey "polymarket" slug ≠ key := by
      rintro rfl
      refine hkey ?_
      rw [toList_eventKey]
      exact List.prefix_append ..
    rw [HashMap.lookup_insert', if_neg hne, h.lookup]
  keys key' hstart hsome := by
    rw [HashMap.lookup_insert'] at hsome
    split at hsome
    · next hkey' => exact absurd (hkey' ▸ hstart) hkey
    · exact h.keys key' hstart hsome
  pending := h.pending

/-- What is read of an answer is stored. -/
theorem Holds.fetchAndStore (h : Holds J s) (slug : String)
    (reply : HttpReply) (now : Int) :
    Holds J
      { s with
        db := (fetchAndStore J texts s.db "polymarket" slug reply now).1
        history := s.history ++ entries J texts slug reply now } := by
  unfold EventService.fetchAndStore PolymarketClient.fetchEventData entries
  cases PolymarketClient.fetchEventBySlug J texts slug reply with
  | error e =>
      show Holds J { s with history := s.history ++ [] }
      rw [List.append_nil]
      exact h
  | ok event => exact h.store ⟨slug, event, now⟩

/-- A request stores what a fetch stores, for the platform that is
supported. -/
theorem refreshEventHandler_fst (db : Database) (platform slug : String)
    (reply : HttpReply) (now : Int) :
    (refreshEventHandler J texts db platform slug reply now).1
      = if platform = "polymarket" then
          (fetchAndStore J texts db platform slug reply now).1
        else db := by
  unfold refreshEventHandler
  by_cases hplatform : platform = "polymarket"
  · rw [if_neg (not_not_intro hplatform), if_pos hplatform]
    obtain ⟨db', result⟩ := fetchAndStore J texts db platform slug reply now
    cases result <;> rfl
  · rw [if_pos hplatform, if_neg hplatform]

/-- So does a pass, for what it lists. -/
theorem refreshEvent_polymarket (J : SerdeJson) (texts : ErrorTexts)
    (db : Database) (slug : String) (reply : HttpReply) (now : Int) :
    refreshEvent J texts db ("polymarket:" ++ slug) reply now
        = (fetchAndStore J texts db "polymarket" slug reply now).1
      ∧ refreshedEntries J texts ("polymarket:" ++ slug) reply now
        = entries J texts slug reply now := by
  unfold refreshEvent refreshedEntries
  rw [splitOnce_polymarket]
  exact ⟨rfl, rfl⟩

/-- Every step keeps the invariant. -/
theorem Holds.step (hserver : server.Lawful) (h : Holds J s)
    {action : ServiceAction} {s' : Service}
    (hstep : s.step J texts server action = some s') : Holds J s' := by
  cases action with
  | initial slug reply now =>
      rw [← Option.some.inj hstep]
      exact h.fetchAndStore slug reply now
  | refresh platform slug reply now =>
      rw [← Option.some.inj hstep, refreshEventHandler_fst]
      by_cases hplatform : platform = "polymarket"
      · rw [if_pos hplatform, if_pos hplatform, hplatform]
        exact h.fetchAndStore slug reply now
      · rw [if_neg hplatform, if_neg hplatform, List.append_nil]
        exact h
  | list =>
      obtain ⟨-, hafter⟩ := Option.ite_none_right_eq_some.1 hstep
      rw [← Option.some.inj hafter]
      refine ⟨h.lookup, h.keys, fun key hkey => ?_⟩
      obtain ⟨key', hkey', rfl⟩ := List.mem_map.1 hkey
      obtain ⟨hsome, hstart⟩ := (mem_eventKeys_iff hserver).1 hkey'
      obtain ⟨slug, rfl⟩ := h.keys key' hstart hsome
      rw [h.lookup, Option.isSome_map, isSome_last_iff] at hsome
      obtain ⟨e, he, rfl⟩ := hsome
      refine ⟨e, he, ?_⟩
      rw [eventKey_polymarket, stripPrefix_append]
      rfl
  | next reply now =>
      obtain ⟨db, pending, history⟩ := s
      cases pending with
      | nil => cases hstep
      | cons key pending =>
          obtain ⟨hkey, hpending⟩ := List.forall_mem_cons.1 h.pending
          obtain ⟨e, -, rfl⟩ := hkey
          obtain ⟨hdb, hentries⟩ :=
            refreshEvent_polymarket J texts db e.slug reply now
          rw [← Option.some.inj hstep]
          simp only [hdb, hentries]
          have hrest : Holds J ⟨db, pending, history⟩ :=
            ⟨h.lookup, h.keys, hpending⟩
          exact hrest.fetchAndStore e.slug reply now
  | storeCondition platform conditionId mapping =>
      rw [← Option.some.inj hstep]
      refine h.insert_other ?_ _
      simp [conditionKey, eventKeyPrefix]
  | storeMarketSlug platform slug mapping =>
      rw [← Option.some.inj hstep]
      refine h.insert_other ?_ _
      simp [marketSlugKey, eventKeyPrefix]

-- ================================================================= answers

/-- What an entry's record is stored as reads back. -/
def Entry.Reads (J : SerdeJson) (e : Entry) : Prop :=
  EventData.fromStr J ((e.data J).toString J) = some (e.data J)

/-- The service answers with what was stored last. -/
structure Serves (J : SerdeJson) (texts : ErrorTexts) (server : RedisServer)
    (s : Service) : Prop where
  event : ∀ slug e, last slug s.history = some e →
    getEventHandler J texts s.db "polymarket" slug = .ok (e.data J)
  event_missing : ∀ slug, last slug s.history = none →
    getEventHandler J texts s.db "polymarket" slug
      = .error (notFound "polymarket" slug)
  tokens : ∀ slug e, last slug s.history = some e →
    getTokensHandler J texts s.db "polymarket" slug
      = .ok ⟨"polymarket", slug, extractTokenMappings J e.event,
          (extractTokenMappings J e.event).length⟩
  tokens_missing : ∀ slug, last slug s.history = none →
    getTokensHandler J texts s.db "polymarket" slug
      = .error (notFound "polymarket" slug)
  other : ∀ p : Platform, p.name ≠ "polymarket" → ∀ slug,
    getEventHandler J texts s.db p.name slug = .error (notFound p.name slug)
  listed : ∀ key, key ∈ (listEventsHandler server s.db).events
    ↔ ∃ slug, (last slug s.history).isSome = true
      ∧ key = "polymarket:" ++ slug
  listed_once : (listEventsHandler server s.db).events.Nodup

theorem getEvent_of_lookup {db : Database} {platform slug : String}
    {e : Entry} (hread : e.Reads J)
    (h : db.lookup (eventKey platform slug) = some ((e.data J).toString J)) :
    getEvent J texts db platform slug = .ok (some (e.data J)) := by
  have hvalue : (J.fromStr ((e.data J).toString J)).bind EventData.ofValue
      = some (e.data J) := hread
  unfold getEvent getRecord
  simp only [h, hvalue]

theorem getEvent_of_missing {db : Database} {platform slug : String}
    (h : db.lookup (eventKey platform slug) = none) :
    getEvent J texts db platform slug = .ok none := by
  unfold getEvent getRecord
  rw [h]

theorem Holds.serves (hserver : server.Lawful) (h : Holds J s)
    (hread : ∀ e ∈ s.history, e.Reads J) : Serves J texts server s where
  event slug e he := by
    have hlookup := h.lookup slug
    rw [he] at hlookup
    unfold getEventHandler
    rw [getEvent_of_lookup (hread e (mem_of_last he).1) hlookup]
  event_missing slug hnone := by
    have hlookup := h.lookup slug
    rw [hnone] at hlookup
    unfold getEventHandler
    rw [getEvent_of_missing hlookup]
  tokens slug e he := by
    have hlookup := h.lookup slug
    rw [he] at hlookup
    have htokens : (e.data J).tokens = extractTokenMappings J e.event := rfl
    unfold getTokensHandler getTokenMappings
    rw [getEvent_of_lookup (hread e (mem_of_last he).1) hlookup]
    simp only [Except.map, Option.map_some, Option.getD_some, htokens]
    split
    · next hempty =>
        have hexists : eventExists s.db "polymarket" slug = true := by
          unfold eventExists
          rw [hlookup]
          rfl
        rw [if_pos hexists, hempty]
        rfl
    · rfl
  tokens_missing slug hnone := by
    have hlookup := h.lookup slug
    rw [hnone] at hlookup
    have hexists : eventExists s.db "polymarket" slug = false := by
      unfold eventExists
      rw [hlookup]
      rfl
    unfold getTokensHandler getTokenMappings
    rw [getEvent_of_missing hlookup]
    simp [Except.map, hexists]
  other p hp slug := by
    have hne : p ≠ polymarket := fun hsame => hp (congrArg _ hsame)
    unfold getEventHandler
    rw [getEvent_of_missing (h.lookup_other hne slug)]
  listed key := by
    show key ∈ (server.keys s.db (eventKeyPrefix ++ "*")).map _ ↔ _
    rw [List.mem_map]
    constructor
    · rintro ⟨key', hkey', rfl⟩
      obtain ⟨hsome, hstart⟩ := (mem_eventKeys_iff hserver).1 hkey'
      obtain ⟨slug, rfl⟩ := h.keys key' hstart hsome
      rw [h.lookup, Option.isSome_map] at hsome
      refine ⟨slug, hsome, ?_⟩
      rw [eventKey_polymarket, stripPrefix_append]
      rfl
    · rintro ⟨slug, hsome, rfl⟩
      refine ⟨eventKey "polymarket" slug,
        (mem_eventKeys_iff hserver).2 ⟨?_, ?_⟩, ?_⟩
      · rw [h.lookup, Option.isSome_map]
        exact hsome
      · rw [toList_eventKey]
        exact List.prefix_append ..
      · rw [eventKey_polymarket, stripPrefix_append]
        rfl
  listed_once := by
    refine List.Nodup.map_on ?_ (s.db.keys_nodup.filter _)
    intro key hkey key' hkey' hsame
    obtain ⟨hsome, hstart⟩ := (mem_eventKeys_iff hserver).1 hkey
    obtain ⟨hsome', hstart'⟩ := (mem_eventKeys_iff hserver).1 hkey'
    obtain ⟨slug, rfl⟩ := h.keys key hstart hsome
    obtain ⟨slug', rfl⟩ := h.keys key' hstart' hsome'
    simp only [eventKey_polymarket, stripPrefix_append, Option.getD_some]
      at hsame
    rw [eventKey_polymarket, eventKey_polymarket, hsame]

-- ================================================================= lookups

/-- An entry as the lookup of tokens knows it. -/
def stored (e : Entry) : StoredEvent := ⟨e.event, e.storedAt⟩

/-- The events that are in the database. -/
def storedEvents (s : Service) : Events := fun p slug =>
  if p = polymarket then (last slug s.history).map stored
  else none

theorem stored_of_holds (h : Holds J s)
    (hsound : ∀ e ∈ s.history, (stored e).Sound J) :
    Stored J s.db (storedEvents s) where
  lookup p slug := by
    unfold storedEvents
    by_cases hp : p = polymarket
    · rw [if_pos hp, hp, Option.map_map]
      exact h.lookup slug
    · rw [if_neg hp]
      exact h.lookup_other hp slug
  sound p slug e he := by
    unfold storedEvents at he
    obtain ⟨-, hlast⟩ := Option.ite_none_right_eq_some.1 he
    obtain ⟨e', he', rfl⟩ := Option.map_eq_some_iff.1 hlast
    exact hsound e' (mem_of_last he').1

-- ================================================================= the run

/-- A step asks for an event. -/
def Asks (slug : String) : ServiceAction → Prop
  | .initial slug' _ _ => slug' = slug
  | .refresh platform slug' _ _ => platform = "polymarket" ∧ slug' = slug
  | _ => False

theorem slug_of_mem_entries {slug : String} {reply : HttpReply} {now : Int}
    {e : Entry} (h : e ∈ entries J texts slug reply now) :
    e.slug = slug := by
  unfold entries at h
  split at h
  · rw [List.mem_singleton.1 h]
  · cases h

/-- What a step stores was asked for by it, or stored before. -/
theorem asked_step (h : Holds J s) {action : ServiceAction} {s' : Service}
    (hstep : s.step J texts server action = some s') :
    ∀ e ∈ s'.history, (∃ e' ∈ s.history, e'.slug = e.slug)
      ∨ Asks e.slug action := by
  intro e he
  cases action with
  | initial slug reply now =>
      rw [← Option.some.inj hstep] at he
      rcases List.mem_append.1 he with hold | hnew
      · exact .inl ⟨e, hold, rfl⟩
      · exact .inr (slug_of_mem_entries hnew).symm
  | refresh platform slug reply now =>
      rw [← Option.some.inj hstep] at he
      rcases List.mem_append.1 he with hold | hnew
      · exact .inl ⟨e, hold, rfl⟩
      · split at hnew
        · next hplatform =>
            exact .inr ⟨hplatform, (slug_of_mem_entries hnew).symm⟩
        · cases hnew
  | list =>
      obtain ⟨-, hafter⟩ := Option.ite_none_right_eq_some.1 hstep
      rw [← Option.some.inj hafter] at he
      exact .inl ⟨e, he, rfl⟩
  | next reply now =>
      obtain ⟨db, pending, history⟩ := s
      cases pending with
      | nil => cases hstep
      | cons key pending =>
          obtain ⟨hkey, -⟩ := List.forall_mem_cons.1 h.pending
          obtain ⟨e', he', rfl⟩ := hkey
          obtain ⟨-, hentries⟩ :=
            refreshEvent_polymarket J texts db e'.slug reply now
          rw [← Option.some.inj hstep] at he
          simp only [hentries] at he
          rcases List.mem_append.1 he with hold | hnew
          · exact .inl ⟨e, hold, rfl⟩
          · exact .inl ⟨e', he', (slug_of_mem_entries hnew).symm⟩
  | storeCondition platform conditionId mapping =>
      rw [← Option.some.inj hstep] at he
      exact .inl ⟨e, he, rfl⟩
  | storeMarketSlug platform slug mapping =>
      rw [← Option.some.inj hstep] at he
      exact .inl ⟨e, he, rfl⟩

theorem holds_run (hserver : server.Lawful) {actions : List ServiceAction}
    (hrun : Service.run J texts server .start actions = some s) :
    Holds J s ∧ ∀ e ∈ s.history, ∃ action ∈ actions, Asks e.slug action := by
  induction actions using List.reverseRecOn generalizing s with
  | nil =>
      obtain rfl := Option.some.inj hrun
      exact ⟨holds_start, fun _ he => nomatch he⟩
  | append_singleton actions action ih =>
      unfold Service.run at hrun ih
      rw [List.foldlM_append] at hrun
      obtain ⟨s₁, hs₁, hlast⟩ := Option.bind_eq_some_iff.1 hrun
      obtain ⟨s₂, hstep, hs₂⟩ := Option.bind_eq_some_iff.1 hlast
      obtain rfl := Option.some.inj hs₂
      obtain ⟨hholds, hasked⟩ := ih hs₁
      refine ⟨hholds.step hserver hstep, fun e he => ?_⟩
      rcases asked_step hholds hstep e he with ⟨e', he', hslug⟩ | hasks
      · obtain ⟨action', haction', hasks⟩ := hasked e' he'
        rw [hslug] at hasks
        exact ⟨action', List.mem_append_left _ haction', hasks⟩
      · exact ⟨action, List.mem_append_right _ List.mem_cons_self, hasks⟩

/-- In any run of the service, with requests, passes and the writes of
other services in any order and the platform answering as it likes: the
service answers for each slug with what was stored last for it, and what
was stored was asked for. -/
theorem service_serves (hserver : server.Lawful)
    {actions : List ServiceAction}
    (hrun : Service.run J texts server .start actions = some s)
    (hread : ∀ e ∈ s.history, e.Reads J) :
    Serves J texts server s
      ∧ ∀ e ∈ s.history, ∃ action ∈ actions, Asks e.slug action := by
  obtain ⟨hholds, hasked⟩ := holds_run hserver hrun
  exact ⟨hholds.serves hserver hread, hasked⟩

/-- An event with one market of two tokens. -/
def twoTokens : Entry where
  slug := "s"
  event :=
    { id := "1"
      slug := "s"
      title := "t"
      description := none
      active := false
      closed := false
      markets :=
        [{ id := "m"
           question := none
           slug := none
           clobTokenIdsRaw := some "[\"a\", \"b\"]"
           outcomes := none
           outcomePrices := none
           bestBid := none
           bestAsk := none
           volume := none
           liquidity := none
           active := true
           closed := false }] }
  storedAt := 7

theorem twoTokens_reads : twoTokens.Reads compactJson := by
  refine EventData.fromStr_toString compactJson_lawful ?_ ?_ ?_
  · simp [Entry.data, EventData.fromEvent, twoTokens, MarketData.fromMarket]
  · exact (by decide : (1 : Int) < 2 ^ 63)
  · exact (by decide : -2 ^ 63 ≤ (7 : Int) ∧ (7 : Int) < 2 ^ 63)

theorem twoTokens_lists :
    Lists compactJson twoTokens.event "b"
      (twoTokens.event.markets.head (by decide)) :=
  ⟨List.head_mem _, by decide +kernel⟩

theorem twoTokens_sound : (stored twoTokens).Sound compactJson :=
  ⟨by decide, twoTokens_reads⟩

/-- With this event alone. -/
theorem twoTokens_stored (h : Holds compactJson s)
    (hhistory : s.history = [twoTokens]) :
    Stored compactJson s.db (storedEvents s)
      ∧ storedEvents s polymarket "s" = some (stored twoTokens) := by
  refine ⟨stored_of_holds h ?_, ?_⟩
  · rw [hhistory]
    exact List.forall_mem_singleton.2 twoTokens_sound
  · unfold storedEvents
    rw [hhistory]
    rfl

/-- Asked for once, and not found by the pass that follows. -/
def oneEvent : List ServiceAction :=
  [.refresh "polymarket" "s" (.answer 200 "200 OK"
      ("[\x7b\"id\":\"1\",\"slug\":\"s\",\"title\":\"t\",\"markets\":["
        ++ "\x7b\"id\":\"m\",\"active\":true,\"clobTokenIds\":"
        ++ "\"[\\\"a\\\", \\\"b\\\"]\"\x7d]\x7d]")) 7,
    .list, .next (.answer 200 "200 OK" "[]") 9]

theorem oneEvent_runs :
    ∃ s, Service.run compactJson ⟨id, id⟩ simpleServer .start oneEvent
        = some s
      ∧ s.history = [twoTokens] := by
  have h : (Service.run compactJson ⟨id, id⟩ simpleServer .start
      oneEvent).any (fun s => decide (s.history = [twoTokens])) = true := by
    decide +kernel
  obtain ⟨s, hs, hhistory⟩ := (Option.any_eq_true _ _).1 h
  exact ⟨s, hs, of_decide_eq_true hhistory⟩

/-- It still answers for the event. -/
theorem service_serves_one_event :
    ∃ s, Service.run compactJson ⟨id, id⟩ simpleServer .start oneEvent
        = some s
      ∧ getTokensHandler compactJson ⟨id, id⟩ s.db "polymarket" "s"
        = .ok ⟨"polymarket", "s",
          [⟨"a", "m", "s"⟩, ⟨"b", "m", "s"⟩], 2⟩ := by
  obtain ⟨s, hrun, hhistory⟩ := oneEvent_runs
  have hread : ∀ e ∈ s.history, e.Reads compactJson := by
    rw [hhistory]
    exact List.forall_mem_singleton.2 twoTokens_reads
  obtain ⟨hserves, -⟩ := service_serves simpleServer_lawful hrun hread
  have hlast : last "s" s.history = some twoTokens := by
    rw [hhistory]
    rfl
  have htokens : extractTokenMappings compactJson twoTokens.event
      = [⟨"a", "m", "s"⟩, ⟨"b", "m", "s"⟩] := by
    decide +kernel
  refine ⟨s, hrun, ?_⟩
  rw [hserves.tokens "s" twoTokens hlast, htokens]
  rfl

end Wup.EventService
