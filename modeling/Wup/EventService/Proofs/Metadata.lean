/-
What the orderbook service learns of a market, however the event service
stores events in between.

A record is made of an event that was stored when its text was got, and is
never changed again: the service looks nothing up for a market that has
one (`metadata_learned`). And a lookup finds something if one event that
lists the token stays in place while it runs, whatever happens to the
others (`message_learns`): its key is listed, and is not passed over.
-/
import Wup.EventService.Proofs.Lookups

namespace Wup.EventService

open ExternalServices hiding MarketData
open SharedRedisClient

variable {D : RustDecimal} {J : SerdeJson} {texts : ErrorTexts}
  {server : RedisServer} {d d' : Deployment} {msg : NormalizedOrderbook}

-- =============================================================== invariant

/-- The message an action hands to the orderbook service. -/
def DeploymentAction.taken : DeploymentAction → Option NormalizedOrderbook
  | .message msg => some msg
  | _ => none

/-- The record of a market is made of a stored event that mentions a
message of the market. -/
def Learned (J : SerdeJson) (taken : List NormalizedOrderbook)
    (history : List Entry) (m : String) (metadata : MarketMetadata) :
    Prop :=
  ∃ msg ∈ taken, msg.marketId = m ∧ msg.platform = "polymarket"
    ∧ ∃ e ∈ history, ∃ market, Mentions J msg e.event market
      ∧ metadata
        = metadataOf "polymarket" (e.slug, ⟨market.id, market.question⟩)

theorem Learned.mono {taken taken' : List NormalizedOrderbook}
    {history history' : List Entry} {m : String} {metadata : MarketMetadata}
    (h : Learned J taken history m metadata) (htaken : taken ⊆ taken')
    (hhistory : history ⊆ history') :
    Learned J taken' history' m metadata := by
  obtain ⟨msg, hmsg, hm, hp, e, he, hrest⟩ := h
  exact ⟨msg, htaken hmsg, hm, hp, e, hhistory he, hrest⟩

/-- Records are learned, and a lookup under way is for a market without
one and has keys of events left. -/
structure Deployment.Sound (J : SerdeJson)
    (taken : List NormalizedOrderbook) (d : Deployment) : Prop where
  holds : Holds J d.events
  cached : ∀ m metadata, d.store.getCachedMarketMetadata m = some metadata →
    Learned J taken d.events.history m metadata
  search : ∀ search, d.search = some search →
    search.msg ∈ taken
      ∧ d.store.getCachedMarketMetadata search.msg.marketId = none
      ∧ ∀ key ∈ search.keys,
        ∃ slug, key = eventKey search.msg.platform slug

theorem Deployment.sound_start : Deployment.Sound J [] .start where
  holds := holds_start
  cached _ _ h := nomatch h
  search _ h := nomatch h

/-- The names of platforms are plain. -/
def Plain (msg : NormalizedOrderbook) : Prop :=
  ∃ p : Platform, p.name = msg.platform

theorem keys_begin (hserver : server.Lawful) (hplain : Plain msg)
    {db : Database} {byMarketId : Bool} :
    ∀ key ∈ (Search.begin server db msg byMarketId).keys,
      ∃ slug, key = eventKey msg.platform slug := by
  intro key hkey
  obtain ⟨p, hp⟩ := hplain
  unfold Search.begin at hkey
  rw [← hp] at hkey ⊢
  exact ((mem_keys_iff hserver).1 hkey).2

/-- Applying a message leaves the records alone. -/
theorem cached_apply (store : OrderbookStore) (m : String) :
    (store.apply D msg).getCachedMarketMetadata m
      = store.getCachedMarketMetadata m := rfl

theorem cached_cacheMarketMetadata (store : OrderbookStore)
    (marketId m : String) (metadata : MarketMetadata) :
    (store.cacheMarketMetadata marketId metadata).getCachedMarketMetadata m
      = if m = marketId then some metadata
        else store.getCachedMarketMetadata m := by
  unfold OrderbookStore.cacheMarketMetadata
    OrderbookStore.getCachedMarketMetadata
  rw [HashMap.lookup_insert']

/-- Every step keeps this, and no record is changed. -/
theorem Deployment.Sound.moves {taken : List NormalizedOrderbook}
    {action : DeploymentAction} (hserver : server.Lawful)
    (h : Deployment.Sound J taken d)
    (hread : ∀ e ∈ d.events.history, e.Reads J)
    (hplain : ∀ msg ∈ taken ++ action.taken.toList, Plain msg)
    (hmoves : Moves D J texts server d action d') :
    Deployment.Sound J (taken ++ action.taken.toList) d'
      ∧ ∀ m metadata, d.store.getCachedMarketMetadata m = some metadata →
        d'.store.getCachedMarketMetadata m = some metadata := by
  have htaken : taken ⊆ taken ++ action.taken.toList :=
    List.subset_append_left ..
  have hhistory := hmoves.history.subset
  have hcached : ∀ m metadata,
      d.store.getCachedMarketMetadata m = some metadata →
      Learned J (taken ++ action.taken.toList) d'.events.history m
        metadata := fun m metadata hm =>
    (h.cached m metadata hm).mono htaken hhistory
  cases hmoves with
  | events hstep =>
      refine ⟨⟨h.holds.step hserver hstep, hcached, fun search hs => ?_⟩,
        fun _ _ hm => hm⟩
      obtain ⟨hmsg, hrest⟩ := h.search search hs
      exact ⟨htaken hmsg, hrest⟩
  | @begins msg hnone hmissing =>
      refine ⟨⟨h.holds, hcached, fun search hs => ?_⟩, fun _ _ hm => hm⟩
      obtain rfl := Option.some.inj hs
      have hmem : msg
          ∈ taken ++ (DeploymentAction.message msg).taken.toList :=
        List.mem_append_right _ (List.mem_singleton.2 rfl)
      exact ⟨hmem, hmissing, keys_begin hserver (hplain msg hmem)⟩
  | applies hnone =>
      refine ⟨⟨h.holds, hcached, fun search hs => ?_⟩, fun _ _ hm => hm⟩
      cases hnone.symm.trans hs
  | @finds search key keys slug market hsearch hkeys hfound =>
      obtain ⟨hmsg, hmissing, hkey⟩ := h.search search hsearch
      obtain ⟨slug', rfl⟩ := hkey key (by rw [hkeys]; exact .head _)
      obtain ⟨p, hp⟩ := hplain search.msg (htaken hmsg)
      obtain ⟨rfl, e, he, found, hpick, heq⟩ := (found_iff h.holds hp
        fun e he => hread e (mem_of_last he).1).1 hfound
      obtain ⟨rfl, rfl⟩ := Prod.mk.inj heq
      obtain ⟨hmem, rfl⟩ := mem_of_last he
      obtain ⟨m, hm, rfl⟩ := pick_sound hpick
      refine ⟨⟨h.holds, fun m' metadata hcached' => ?_, nofun⟩,
        fun m' metadata hm' => ?_⟩
      · rw [cached_apply, cached_cacheMarketMetadata] at hcached'
        split at hcached'
        · next hsame =>
            obtain rfl := Option.some.inj hcached'
            refine ⟨search.msg, htaken hmsg, hsame.symm, hp.symm, e, hmem,
              m, hm, ?_⟩
            unfold Search.metadata
            rw [← hp]
            rfl
        · exact hcached m' metadata hcached'
      · rw [cached_apply, cached_cacheMarketMetadata, if_neg, hm']
        rintro rfl
        cases hmissing.symm.trans hm'
  | @passes search key keys hsearch hkeys hfound =>
      refine ⟨⟨h.holds, hcached, fun search' hs => ?_⟩, fun _ _ hm => hm⟩
      obtain rfl := Option.some.inj hs
      obtain ⟨hmsg, hmissing, hkey⟩ := h.search search hsearch
      exact ⟨htaken hmsg, hmissing, fun key' hkey' =>
        hkey key' (by rw [hkeys]; exact .tail _ hkey')⟩
  | @fallsBack search hsearch hkeys hfirst =>
      refine ⟨⟨h.holds, hcached, fun search' hs => ?_⟩, fun _ _ hm => hm⟩
      obtain rfl := Option.some.inj hs
      obtain ⟨hmsg, hmissing, -⟩ := h.search search hsearch
      exact ⟨htaken hmsg, hmissing,
        keys_begin hserver (hplain search.msg (htaken hmsg))⟩
  | givesUp hsearch =>
      exact ⟨⟨h.holds, hcached, nofun⟩, fun _ _ hm => hm⟩

-- ==================================================================== runs

/-- The messages the orderbook service takes in a run, in order. -/
def messages (actions : List DeploymentAction) : List NormalizedOrderbook :=
  actions.filterMap DeploymentAction.taken

theorem run_cons {action : DeploymentAction}
    {actions : List DeploymentAction}
    (h : d.run D J texts server (action :: actions) = some d') :
    ∃ d₁, Moves D J texts server d action d₁
      ∧ d₁.run D J texts server actions = some d' := by
  unfold Deployment.run at h ⊢
  rw [List.foldlM_cons] at h
  obtain ⟨d₁, hstep, hrest⟩ := Option.bind_eq_some_iff.1 h
  exact ⟨d₁, moves_of_step hstep, hrest⟩

theorem Moves.holds {action : DeploymentAction} (hserver : server.Lawful)
    (h : Holds J d.events)
    (hmoves : Moves D J texts server d action d') : Holds J d'.events := by
  cases hmoves with
  | events hstep => exact h.step hserver hstep
  | _ => exact h

theorem holds_deployment_run {actions : List DeploymentAction}
    (hserver : server.Lawful) (h : Holds J d.events)
    (hrun : d.run D J texts server actions = some d') :
    Holds J d'.events := by
  induction actions generalizing d with
  | nil =>
      obtain rfl := Option.some.inj hrun
      exact h
  | cons action actions ih =>
      obtain ⟨d₁, hmoves, hrest⟩ := run_cons hrun
      exact ih (hmoves.holds hserver h) hrest

/-- Nothing is stored where the event service does not move. -/
theorem events_run {actions : List DeploymentAction}
    (hquiet : ∀ action, .events action ∉ actions)
    (h : d.run D J texts server actions = some d') :
    d'.events = d.events := by
  induction actions generalizing d with
  | nil =>
      obtain rfl := Option.some.inj h
      rfl
  | cons action actions ih =>
      obtain ⟨d₁, hmoves, hrest⟩ := run_cons h
      have hrest' := ih (fun a ha => hquiet a (.tail _ ha)) hrest
      cases hmoves with
      | events => exact absurd (.head _) (hquiet _)
      | _ => exact hrest'

theorem history_run {actions : List DeploymentAction}
    (h : d.run D J texts server actions = some d') :
    d.events.history <+: d'.events.history := by
  induction actions generalizing d with
  | nil =>
      obtain rfl := Option.some.inj h
      exact List.prefix_rfl
  | cons action actions ih =>
      obtain ⟨d₁, hmoves, hrest⟩ := run_cons h
      exact hmoves.history.trans (ih hrest)

theorem messages_cons (action : DeploymentAction)
    (actions : List DeploymentAction) :
    messages (action :: actions)
      = action.taken.toList ++ messages actions := by
  unfold messages
  cases h : action.taken with
  | none => rw [List.filterMap_cons_none h]; rfl
  | some msg => rw [List.filterMap_cons_some h]; rfl

theorem Deployment.Sound.run {taken : List NormalizedOrderbook}
    {actions : List DeploymentAction} (hserver : server.Lawful)
    (h : Deployment.Sound J taken d)
    (hrun : d.run D J texts server actions = some d')
    (hread : ∀ e ∈ d'.events.history, e.Reads J)
    (hplain : ∀ msg ∈ taken ++ messages actions, Plain msg) :
    Deployment.Sound J (taken ++ messages actions) d'
      ∧ ∀ m metadata, d.store.getCachedMarketMetadata m = some metadata →
        d'.store.getCachedMarketMetadata m = some metadata := by
  induction actions generalizing d taken with
  | nil =>
      obtain rfl := Option.some.inj hrun
      exact ⟨by rwa [show messages [] = [] from rfl, List.append_nil],
        fun _ _ hm => hm⟩
  | cons action actions ih =>
      have hhistory := (history_run hrun).subset
      obtain ⟨d₁, hmoves, hrest⟩ := run_cons hrun
      rw [messages_cons, ← List.append_assoc] at hplain ⊢
      obtain ⟨hsound, hkept⟩ := h.moves hserver
        (fun e he => hread e (hhistory he))
        (fun msg hmsg => hplain msg (List.mem_append_left _ hmsg)) hmoves
      obtain ⟨hsound', hkept'⟩ := ih hsound hrest hplain
      exact ⟨hsound', fun m metadata hm =>
        hkept' m metadata (hkept m metadata hm)⟩

/-- In any run of both services, whatever is stored while lookups are under
way: the record of a market is made of a stored event that mentions a
message of it, and it is there for good. -/
theorem metadata_learned (hserver : server.Lawful)
    {actions more : List DeploymentAction}
    (hrun : Deployment.run D J texts server .start actions = some d)
    (hmore : d.run D J texts server more = some d')
    (hread : ∀ e ∈ d'.events.history, e.Reads J)
    (hplain : ∀ msg ∈ messages actions ++ messages more, Plain msg)
    {m : String} {metadata : MarketMetadata}
    (h : d.store.getCachedMarketMetadata m = some metadata) :
    Learned J (messages actions) d.events.history m metadata
      ∧ d'.store.getCachedMarketMetadata m = some metadata := by
  have hhistory := (history_run hmore).subset
  obtain ⟨hsound, -⟩ := Deployment.sound_start.run hserver hrun
    (fun e he => hread e (hhistory he))
    fun msg hmsg => hplain msg (List.mem_append_left _ hmsg)
  obtain ⟨-, hkept⟩ := hsound.run hserver hmore hread hplain
  exact ⟨hsound.cached m metadata h, hkept m metadata h⟩

/-- A message of the second token of the event. -/
def tokenMessage : NormalizedOrderbook := .deltaOf "polymarket" "c" "b" []

/-- The services with the event stored. -/
theorem storing_runs :
    ∃ d, Deployment.run fixedPoint compactJson ⟨id, id⟩ simpleServer .start
        ((oneEvent.take 1).map .events) = some d
      ∧ d.events.history = [twoTokens] ∧ d.search = none
      ∧ d.store.getCachedMarketMetadata "c" = none := by
  have h : (Deployment.run fixedPoint compactJson ⟨id, id⟩ simpleServer
      .start ((oneEvent.take 1).map .events)).any (fun d =>
        decide (d.events.history = [twoTokens]) && (d.search.isNone
          && (d.store.getCachedMarketMetadata "c").isNone)) = true := by
    decide +kernel
  obtain ⟨d, hd, hall⟩ := (Option.any_eq_true _ _).1 h
  obtain ⟨hhistory, hrest⟩ := (Bool.and_eq_true _ _).mp hall
  obtain ⟨hnone, hmissing⟩ := (Bool.and_eq_true _ _).mp hrest
  exact ⟨d, hd, of_decide_eq_true hhistory,
    Option.isNone_iff_eq_none.1 hnone,
    Option.isNone_iff_eq_none.1 hmissing⟩

theorem found_tokenMessage {s : Service} (h : Holds compactJson s)
    (hhistory : s.history = [twoTokens]) :
    ((eventLookups compactJson simpleServer s.db).found
      tokenMessage).isSome = true := by
  obtain ⟨hstored, hevent⟩ := twoTokens_stored h hhistory
  exact (isSome_found_iff simpleServer_lawful hstored rfl).2 ⟨"s", _,
    rfl, ⟨_, hevent, twoTokens_lists.1⟩, .inl twoTokens_lists.2⟩

/-- A lookup that nothing disturbs learns of it. -/
theorem oneLookup_runs (hholds : Holds compactJson d.events)
    (hhistory : d.events.history = [twoTokens]) (hidle : d.search = none)
    (hmissing : d.store.getCachedMarketMetadata "c" = none) :
    ∃ n d' metadata, d.run fixedPoint compactJson ⟨id, id⟩ simpleServer
        (.message tokenMessage :: List.replicate n .get) = some d'
      ∧ d'.events = d.events ∧ d'.search = none
      ∧ d'.store.getCachedMarketMetadata "c" = some metadata := by
  obtain ⟨n, hn⟩ := lookup_undisturbed fixedPoint compactJson ⟨id, id⟩
    simpleServer hidle tokenMessage true 0
  have hsome := found_tokenMessage hholds hhistory
  obtain ⟨found, hfound⟩ := Option.isSome_iff_exists.1 hsome
  refine ⟨n, _, metadataOf "polymarket" found, hn, rfl, hidle, ?_⟩
  refine (cached_processMessage true d.store tokenMessage 0 "c").trans ?_
  have hknown : (eventLookups compactJson simpleServer d.events.db).known
      "c" tokenMessage = some ("polymarket", found) := by
    have hmarket : tokenMessage.marketId = "c" := rfl
    rw [RedisClient.known, if_pos hmarket, hfound]
    rfl
  rw [hmissing, hknown]
  rfl

/-- Its record is of the event, with the slug of the event. -/
theorem metadata_learned_one_lookup :
    ∃ n d metadata, Deployment.run fixedPoint compactJson ⟨id, id⟩
        simpleServer .start ((oneEvent.take 1).map .events
          ++ .message tokenMessage :: List.replicate n .get) = some d
      ∧ d.store.getCachedMarketMetadata "c" = some metadata
      ∧ metadata.slugs.lookup "polymarket" = some "s" := by
  obtain ⟨d, hd, hhistory, hidle, hmissing⟩ := storing_runs
  obtain ⟨n, d', metadata, hlookup, hevents, -, hcached⟩ := oneLookup_runs
    (holds_deployment_run simpleServer_lawful holds_start hd) hhistory hidle
    hmissing
  have hrun := (run_append hd).trans hlookup
  have hall : ∀ e ∈ d'.events.history, e = twoTokens := by
    rw [hevents, hhistory]
    simp
  have hplain : ∀ msg ∈ messages ((oneEvent.take 1).map .events
      ++ .message tokenMessage :: List.replicate n .get) ++ messages [],
      Plain msg := by
    intro msg hmsg
    refine ⟨polymarket, ?_⟩
    simp [messages, oneEvent, DeploymentAction.taken] at hmsg
    rw [← hmsg]
    rfl
  obtain ⟨⟨-, -, -, -, e, he, m, -, rfl⟩, -⟩ := metadata_learned
    simpleServer_lawful hrun rfl
    (fun e he => hall e he ▸ twoTokens_reads) hplain hcached
  refine ⟨n, d', _, hrun, hcached, ?_⟩
  rw [slugs_metadataOf, if_pos rfl, hall e he]
  rfl

-- ============================================================ a safe event

/-- The market has a record, or the first search for the message has still
to get the event of this slug. -/
def Waits (msg : NormalizedOrderbook) (slug : String) (d : Deployment) :
    Prop :=
  (d.store.getCachedMarketMetadata msg.marketId).isSome = true
    ∨ ∃ search, d.search = some search ∧ search.msg = msg
      ∧ search.byMarketId = false
      ∧ eventKey msg.platform slug ∈ search.keys

theorem isSome_cacheMarketMetadata {store : OrderbookStore} {m : String}
    (h : (store.getCachedMarketMetadata m).isSome = true)
    (marketId : String) (metadata : MarketMetadata) :
    ((store.cacheMarketMetadata marketId metadata).getCachedMarketMetadata
      m).isSome = true := by
  rw [cached_cacheMarketMetadata]
  split
  · rfl
  · exact h

/-- The lookup does not pass over the event while it is there. -/
theorem Waits.moves {action : DeploymentAction} {slug : String} {e : Entry}
    {market : Market} (hp : msg.platform = "polymarket")
    (hlists : Lists J e.event msg.clobTokenId market)
    (hholds : Holds J d.events) (hread : e.Reads J)
    (he : last slug d.events.history = some e) (h : Waits msg slug d)
    (hmoves : Moves D J texts server d action d') : Waits msg slug d' := by
  rcases h with hcached | ⟨search, hsearch, rfl, hfirst, hkey⟩
  · refine .inl ?_
    cases hmoves with
    | finds => exact isSome_cacheMarketMetadata hcached ..
    | _ => exact hcached
  · cases hmoves with
    | events hstep => exact .inr ⟨search, hsearch, rfl, hfirst, hkey⟩
    | begins hnone => cases hnone.symm.trans hsearch
    | applies hnone => cases hnone.symm.trans hsearch
    | @finds search' key keys slug' found hsearch' hkeys hfound =>
        obtain rfl := Option.some.inj (hsearch.symm.trans hsearch')
        refine .inl ?_
        rw [cached_apply, cached_cacheMarketMetadata, if_pos rfl]
        rfl
    | @passes search' key keys hsearch' hkeys hfound =>
        obtain rfl := Option.some.inj (hsearch.symm.trans hsearch')
        refine .inr ⟨_, rfl, rfl, hfirst, ?_⟩
        rw [hkeys] at hkey
        refine (List.mem_cons.1 hkey).resolve_left ?_
        rintro rfl
        have hsome := found_isSome hholds hfirst hp he hread hlists
        rw [hfound] at hsome
        cases hsome
    | fallsBack hsearch' hkeys =>
        obtain rfl := Option.some.inj (hsearch.symm.trans hsearch')
        rw [hkeys] at hkey
        cases hkey
    | givesUp hsearch' hkeys =>
        obtain rfl := Option.some.inj (hsearch.symm.trans hsearch')
        rw [hkeys] at hkey
        cases hkey

theorem Waits.run {actions : List DeploymentAction} {slug : String}
    {e : Entry} {market : Market} (hserver : server.Lawful)
    (hp : msg.platform = "polymarket")
    (hlists : Lists J e.event msg.clobTokenId market) (hread : e.Reads J)
    (hholds : Holds J d.events) (h : Waits msg slug d)
    (hrun : d.run D J texts server actions = some d')
    (hstays : ∀ mid d₁, mid <+: actions →
      d.run D J texts server mid = some d₁ →
      last slug d₁.events.history = some e) : Waits msg slug d' := by
  induction actions generalizing d with
  | nil =>
      obtain rfl := Option.some.inj hrun
      exact h
  | cons action actions ih =>
      obtain ⟨d₁, hstep, hrest⟩ := Option.bind_eq_some_iff.1
        ((List.foldlM_cons ..).symm.trans hrun)
      have hmoves := moves_of_step hstep
      have he := hstays [] d (List.nil_prefix ..) rfl
      refine ih (hmoves.holds hserver hholds)
        (h.moves hp hlists hholds hread he hmoves) hrest
        fun mid d₂ hmid hd₂ => ?_
      refine hstays (action :: mid) d₂
        (List.cons_prefix_cons.2 ⟨rfl, hmid⟩) ?_
      unfold Deployment.run at hd₂ ⊢
      rw [List.foldlM_cons, hstep]
      exact hd₂

/-- Where an event that lists the token of a Polymarket message stands in
the database when the message comes, and stays there until the lookup has
ended, the market has a record in the end, whatever else is stored in the
meantime. Of the other events nothing is asked. -/
theorem message_learns (hserver : server.Lawful)
    {actions more : List DeploymentAction}
    (hrun : Deployment.run D J texts server .start actions = some d)
    (hp : msg.platform = "polymarket") {slug : String} {e : Entry}
    {market : Market} (he : last slug d.events.history = some e)
    (hlists : Lists J e.event msg.clobTokenId market) (hread : e.Reads J)
    (hmore : d.run D J texts server (.message msg :: more) = some d')
    (hstays : ∀ mid d₁, mid <+: more →
      d.run D J texts server (.message msg :: mid) = some d₁ →
      last slug d₁.events.history = some e)
    (hended : d'.search = none) :
    (d'.store.getCachedMarketMetadata msg.marketId).isSome = true := by
  have hholds : Holds J d.events :=
    holds_deployment_run hserver holds_start hrun
  obtain ⟨d₁, hstep, hrest⟩ := Option.bind_eq_some_iff.1
    ((List.foldlM_cons ..).symm.trans hmore)
  have hwaits : Waits msg slug d₁ := by
    cases moves_of_step hstep with
    | begins hnone hmissing =>
        refine .inr ⟨_, rfl, rfl, rfl, ?_⟩
        have hname : polymarket.name = msg.platform := hp.symm
        unfold Search.begin
        rw [← hname]
        refine (mem_keys_iff hserver).2 ⟨?_, slug, rfl⟩
        have hlookup := hholds.lookup slug
        rw [he] at hlookup
        exact Option.isSome_iff_exists.2 ⟨_, hlookup⟩
    | applies hnone hcached => exact .inl hcached
  have hwaits' := hwaits.run hserver hp hlists hread
    ((moves_of_step hstep).holds hserver hholds) hrest
    fun mid d₂ hmid hd₂ => by
      refine hstays mid d₂ hmid ?_
      unfold Deployment.run at hd₂ ⊢
      rw [List.foldlM_cons, hstep]
      exact hd₂
  rcases hwaits' with hcached | ⟨search, hsearch, -⟩
  · exact hcached
  · cases hended.symm.trans hsearch

/-- Without anything stored. -/
theorem message_learns_one_lookup :
    ∃ n d, Deployment.run fixedPoint compactJson ⟨id, id⟩ simpleServer
        .start ((oneEvent.take 1).map .events
          ++ .message tokenMessage :: List.replicate n .get) = some d
      ∧ (d.store.getCachedMarketMetadata "c").isSome = true := by
  obtain ⟨d, hd, hhistory, hidle, hmissing⟩ := storing_runs
  obtain ⟨n, d', -, hlookup, hevents, hended, -⟩ := oneLookup_runs
    (holds_deployment_run simpleServer_lawful holds_start hd) hhistory hidle
    hmissing
  have hlast : last "s" d.events.history = some twoTokens := by
    rw [hhistory]
    rfl
  refine ⟨n, d', (run_append hd).trans hlookup,
    message_learns simpleServer_lawful hd rfl hlast twoTokens_lists
      twoTokens_reads hlookup (fun mid d₁ hmid hd₁ => ?_) hended⟩
  -- only the orderbook service moves
  have hevents : d₁.events = d.events := by
    refine events_run (fun action haction => ?_) hd₁
    rcases List.mem_cons.1 haction with hmessage | hget
    · cases hmessage
    · cases List.eq_of_mem_replicate (hmid.subset hget)
  rw [hevents, hlast]

end Wup.EventService
