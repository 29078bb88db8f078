/-
A lookup, command by command.

What is found under a key is found in the event stored last for its slug
(`found_iff`). A step of the two services is one of a few moves (`Moves`),
and a lookup during which nothing is stored does what processing the
message in one go does (`lookup_undisturbed`).

What is learned where events are stored in between is in
EventService/Proofs/Metadata.lean.
-/
import Wup.EventService.Lookups
import Wup.EventService.Proofs.Service
import Wup.ExternalServices.Proofs.ServiceMetadata

namespace Wup.EventService

open ExternalServices hiding MarketData
open SharedRedisClient

variable {D : RustDecimal} {J : SerdeJson} {texts : ErrorTexts}
  {server : RedisServer} {d d' : Deployment} {msg : NormalizedOrderbook}

-- =============================================================== one event

/-- What concerns a message in an event: a market that lists its token,
or has the id of one that does, or has its market id. -/
def Mentions (J : SerdeJson) (msg : NormalizedOrderbook) (event : Event)
    (market : Market) : Prop :=
  market ∈ event.markets
    ∧ ((∃ listed, Lists J event msg.clobTokenId listed
          ∧ market.id = listed.id)
      ∨ market.id = msg.marketId)

/-- Either search picks a market that concerns its message. -/
theorem pick_sound {search : Search} {e : Entry}
    {market : ExternalServices.MarketData}
    (h : search.pick (e.data J) = some market) :
    ∃ m, Mentions J search.msg e.event m ∧ market = .fromMarket J m := by
  unfold Search.pick at h
  split at h
  · obtain ⟨m, hm, rfl⟩ := List.mem_map.1 (List.mem_of_find?_eq_some h)
    have hid := List.find?_some h
    exact ⟨m, ⟨hm, .inr (of_decide_eq_true hid)⟩, rfl⟩
  · rcases @marketOfToken_cases J e.event e.storedAt
        search.msg.clobTokenId with
      ⟨listed, m, hlists, hm, hid, hpick⟩ | ⟨-, hnone⟩
    · obtain rfl := Option.some.inj (hpick.symm.trans h)
      exact ⟨m, ⟨hm, .inl ⟨listed, hlists, hid⟩⟩, rfl⟩
    · cases hnone.symm.trans h

/-- The first search picks something where the token is listed. -/
theorem pick_isSome {search : Search} (hfirst : search.byMarketId = false)
    {e : Entry} {m : Market}
    (hlists : Lists J e.event search.msg.clobTokenId m) :
    (search.pick (e.data J)).isSome = true := by
  unfold Search.pick
  rw [hfirst, if_neg Bool.false_ne_true]
  rcases @marketOfToken_cases J e.event e.storedAt
      search.msg.clobTokenId with ⟨-, m', -, -, -, hpick⟩ | ⟨hnone, -⟩
  · exact Option.isSome_iff_exists.2 ⟨_, hpick⟩
  · exact absurd ⟨m, hlists⟩ hnone

-- ================================================================= one get

/-- What was got under a key of the message's platform. -/
theorem found_iff {s : Service} (h : Holds J s) {search : Search}
    {p : Platform} (hp : p.name = search.msg.platform) {slug : String}
    (hread : ∀ e ∈ last slug s.history, e.Reads J)
    {r : String × ExternalServices.MarketData} :
    search.found J s.db (eventKey search.msg.platform slug) = some r
      ↔ p = polymarket ∧ ∃ e, last slug s.history = some e
        ∧ ∃ market, search.pick (e.data J) = some market
          ∧ r = (slug, market) := by
  unfold Search.found
  rw [← hp, slugOf_eventKey]
  by_cases hpoly : p = polymarket
  · subst hpoly
    have hname : polymarket.name = "polymarket" := rfl
    rw [hname, h.lookup]
    cases he : last slug s.history with
    | none => simp
    | some e =>
        have hvalue : EventData.fromStr J ((e.data J).toString J)
            = some (e.data J) := hread e he
        rw [Option.map_some, Option.bind_some, hvalue, Option.bind_some]
        simp [eq_comm]
  · rw [h.lookup_other hpoly]
    simp [hpoly]

/-- Where the last event of a slug lists the token, the first search finds
something under its key. -/
theorem found_isSome {s : Service} (h : Holds J s) {search : Search}
    (hfirst : search.byMarketId = false)
    (hp : search.msg.platform = "polymarket") {slug : String} {e : Entry}
    (he : last slug s.history = some e) (hread : e.Reads J) {m : Market}
    (hlists : Lists J e.event search.msg.clobTokenId m) :
    (search.found J s.db (eventKey search.msg.platform slug)).isSome
      = true := by
  obtain ⟨market, hmarket⟩ := Option.isSome_iff_exists.1
    (pick_isSome hfirst hlists)
  have hname : polymarket.name = search.msg.platform := hp.symm
  have hlast : ∀ e' ∈ last slug s.history, e'.Reads J := by
    intro e' he'
    obtain rfl := Option.some.inj (he.symm.trans he')
    exact hread
  exact Option.isSome_iff_exists.2 ⟨_,
    (found_iff h hname hlast).2 ⟨rfl, e, he, market, hmarket, rfl⟩⟩

-- ================================================================== a step

/-- What the steps of a deployment do. -/
inductive Moves (D : RustDecimal) (J : SerdeJson) (texts : ErrorTexts)
    (server : RedisServer) (d : Deployment) :
    DeploymentAction → Deployment → Prop
  | events {action : ServiceAction} {events : Service} :
      d.events.step J texts server action = some events →
      Moves D J texts server d (.events action) { d with events := events }
  | begins {msg : NormalizedOrderbook} : d.search = none →
      d.store.getCachedMarketMetadata msg.marketId = none →
      Moves D J texts server d (.message msg)
        { d with search := some (.begin server d.events.db msg false) }
  | applies {msg : NormalizedOrderbook} : d.search = none →
      (d.store.getCachedMarketMetadata msg.marketId).isSome = true →
      Moves D J texts server d (.message msg)
        { d with store := d.store.apply D msg }
  | finds {search : Search} {key : String} {keys : List String}
      {slug : String} {market : ExternalServices.MarketData} :
      d.search = some search → search.keys = key :: keys →
      search.found J d.events.db key = some (slug, market) →
      Moves D J texts server d .get
        { d with
          store := (d.store.cacheMarketMetadata search.msg.marketId
            (search.metadata slug market)).apply D search.msg
          search := none }
  | passes {search : Search} {key : String} {keys : List String} :
      d.search = some search → search.keys = key :: keys →
      search.found J d.events.db key = none →
      Moves D J texts server d .get
        { d with search := some { search with keys := keys } }
  | fallsBack {search : Search} :
      d.search = some search → search.keys = [] →
      search.byMarketId = false →
      Moves D J texts server d .get
        { d with
          search := some (.begin server d.events.db search.msg true) }
  | givesUp {search : Search} :
      d.search = some search → search.keys = [] →
      search.byMarketId = true →
      Moves D J texts server d .get
        { d with store := d.store.apply D search.msg, search := none }

theorem moves_of_step {action : DeploymentAction}
    (h : d.step D J texts server action = some d') :
    Moves D J texts server d action d' := by
  obtain ⟨events, store, search⟩ := d
  cases action with
  | events action =>
      obtain ⟨events', hevents, rfl⟩ := Option.map_eq_some_iff.1 h
      exact .events hevents
  | message msg =>
      cases search with
      | some search => cases h
      | none =>
          cases hcached : store.getCachedMarketMetadata msg.marketId with
          | none =>
              have hnone : (store.getCachedMarketMetadata
                msg.marketId).isNone = true := by rw [hcached]; rfl
              rw [← Option.some.inj ((if_pos hnone).symm.trans h)]
              exact .begins rfl hcached
          | some metadata =>
              have hsome : ¬ (store.getCachedMarketMetadata
                msg.marketId).isNone = true := by rw [hcached]; nofun
              rw [← Option.some.inj ((if_neg hsome).symm.trans h)]
              exact .applies rfl (by rw [hcached]; rfl)
  | get =>
      cases search with
      | none => cases h
      | some search =>
          obtain ⟨msg, byMarketId, keys⟩ := search
          cases keys with
          | nil =>
              cases byMarketId with
              | true =>
                  rw [← Option.some.inj h]
                  exact .givesUp rfl rfl rfl
              | false =>
                  rw [← Option.some.inj h]
                  exact .fallsBack rfl rfl rfl
          | cons key keys =>
              cases hfound : Search.found J ⟨msg, byMarketId, key :: keys⟩
                  events.db key with
              | none =>
                  simp only [Deployment.step, hfound] at h
                  rw [← Option.some.inj h]
                  exact .passes (d := ⟨events, store, some _⟩) rfl rfl hfound
              | some r =>
                  simp only [Deployment.step, hfound] at h
                  rw [← Option.some.inj h]
                  exact .finds (d := ⟨events, store, some _⟩) rfl rfl hfound

/-- What was stored stays known. -/
theorem history_step {s s' : Service} {action : ServiceAction}
    (h : s.step J texts server action = some s') :
    s.history <+: s'.history := by
  cases action with
  | initial slug reply now =>
      rw [← Option.some.inj h]
      exact List.prefix_append ..
  | refresh platform slug reply now =>
      rw [← Option.some.inj h]
      exact List.prefix_append ..
  | list =>
      obtain ⟨-, hafter⟩ := Option.ite_none_right_eq_some.1 h
      rw [← Option.some.inj hafter]
  | next reply now =>
      obtain ⟨db, pending, history⟩ := s
      cases pending with
      | nil => cases h
      | cons key pending =>
          rw [← Option.some.inj h]
          exact List.prefix_append ..
  | storeCondition platform conditionId mapping =>
      rw [← Option.some.inj h]
  | storeMarketSlug platform slug mapping =>
      rw [← Option.some.inj h]

theorem Moves.history {action : DeploymentAction}
    (h : Moves D J texts server d action d') :
    d.events.history <+: d'.events.history := by
  cases h with
  | events hstep => exact history_step hstep
  | _ => exact List.prefix_rfl

-- ============================================================= undisturbed

section Undisturbed

variable {events : Service} {store : OrderbookStore} {byMarketId : Bool}
  {keys : List String}

theorem run_append {actions more : List DeploymentAction}
    (h : d.run D J texts server actions = some d') :
    d.run D J texts server (actions ++ more)
      = d'.run D J texts server more := by
  unfold Deployment.run at h ⊢
  rw [List.foldlM_append, h]
  rfl

/-- A search alone with the database finds what its keys lead to. -/
theorem gets_found (D : RustDecimal) (texts : ErrorTexts)
    (server : RedisServer) (store : OrderbookStore) {slug : String}
    {market : ExternalServices.MarketData}
    (h : keys.findSome? (Search.found J ⟨msg, byMarketId, keys⟩ events.db)
      = some (slug, market)) :
    ∃ n, Deployment.run D J texts server
        ⟨events, store, some ⟨msg, byMarketId, keys⟩⟩
        (List.replicate n .get)
      = some ⟨events, (store.cacheMarketMetadata msg.marketId
          (metadataOf msg.platform (slug, market.seen))).apply D msg,
        none⟩ := by
  induction keys with
  | nil => cases h
  | cons key keys ih =>
      rw [List.findSome?_cons] at h
      cases hfound : Search.found J ⟨msg, byMarketId, key :: keys⟩
          events.db key with
      | none =>
          rw [hfound] at h
          obtain ⟨n, hn⟩ := ih h
          refine ⟨n + 1, ?_⟩
          unfold Deployment.run at hn ⊢
          rw [List.replicate_succ, List.foldlM_cons]
          simp only [Deployment.step, hfound]
          exact hn
      | some r =>
          rw [hfound] at h
          obtain rfl := Option.some.inj h
          refine ⟨1, ?_⟩
          unfold Deployment.run
          rw [List.replicate_one, List.foldlM_cons]
          simp only [Deployment.step, hfound]
          rfl

/-- Where they lead to nothing, it comes to their end. -/
theorem gets_none (D : RustDecimal) (texts : ErrorTexts)
    (server : RedisServer) (store : OrderbookStore)
    (h : keys.findSome? (Search.found J ⟨msg, byMarketId, keys⟩ events.db)
      = none) :
    ∃ n, Deployment.run D J texts server
        ⟨events, store, some ⟨msg, byMarketId, keys⟩⟩
        (List.replicate n .get)
      = some ⟨events, store, some ⟨msg, byMarketId, []⟩⟩ := by
  induction keys with
  | nil => exact ⟨0, rfl⟩
  | cons key keys ih =>
      rw [List.findSome?_cons] at h
      cases hfound : Search.found J ⟨msg, byMarketId, key :: keys⟩
          events.db key with
      | none =>
          rw [hfound] at h
          obtain ⟨n, hn⟩ := ih h
          refine ⟨n + 1, ?_⟩
          unfold Deployment.run at hn ⊢
          rw [List.replicate_succ, List.foldlM_cons]
          simp only [Deployment.step, hfound]
          exact hn
      | some r =>
          rw [hfound] at h
          cases h

/-- Both searches, one after the other. -/
theorem searches_run (D : RustDecimal) (J : SerdeJson) (texts : ErrorTexts)
    (server : RedisServer) (events : Service) (store : OrderbookStore)
    (msg : NormalizedOrderbook) :
    ∃ n, Deployment.run D J texts server
        ⟨events, store, some (.begin server events.db msg false)⟩
        (List.replicate n .get)
      = some ⟨events, ((((eventLookups J server events.db).found msg).map
          fun found => store.cacheMarketMetadata msg.marketId
            (metadataOf msg.platform found)).getD store).apply D msg,
        none⟩ := by
  have hlookups : (eventLookups J server events.db).found msg
      = ((findMarketByTokenId J server events.db msg.platform
            msg.clobTokenId).map (Prod.map id MarketData.seen)).or
          ((findMarketById J server events.db msg.platform
            msg.marketId).map (Prod.map id MarketData.seen)) := rfl
  -- both searches list the same keys
  have hfirst : (server.keys events.db
      (platformPrefix msg.platform ++ "*")).findSome?
        (Search.found J (.begin server events.db msg false) events.db)
      = findMarketByTokenId J server events.db msg.platform
          msg.clobTokenId := rfl
  have hsecond : (server.keys events.db
      (platformPrefix msg.platform ++ "*")).findSome?
        (Search.found J (.begin server events.db msg true) events.db)
      = findMarketById J server events.db msg.platform msg.marketId := rfl
  cases htoken : findMarketByTokenId J server events.db msg.platform
      msg.clobTokenId with
  | some r =>
      obtain ⟨n, hn⟩ := gets_found D texts server store (hfirst.trans htoken)
      refine ⟨n, hn.trans ?_⟩
      rw [hlookups, htoken]
      rfl
  | none =>
      obtain ⟨n, hn⟩ := gets_none D texts server store (hfirst.trans htoken)
      cases hid : findMarketById J server events.db msg.platform
          msg.marketId with
      | some r =>
          obtain ⟨k, hk⟩ :=
            gets_found D texts server store (hsecond.trans hid)
          refine ⟨n + (k + 1), ?_⟩
          rw [List.replicate_add, List.replicate_succ]
          refine (run_append hn).trans (hk.trans ?_)
          rw [hlookups, htoken, hid]
          rfl
      | none =>
          obtain ⟨k, hk⟩ :=
            gets_none D texts server store (hsecond.trans hid)
          refine ⟨n + (k + 1 + 1), ?_⟩
          rw [List.replicate_add, List.replicate_succ,
            List.replicate_succ']
          refine (run_append hn).trans ((run_append hk).trans ?_)
          rw [hlookups, htoken, hid]
          rfl

end Undisturbed

/-- A lookup during which nothing is stored does what processing the message
in one go does. -/
theorem lookup_undisturbed (D : RustDecimal) (J : SerdeJson)
    (texts : ErrorTexts) (server : RedisServer) (hidle : d.search = none)
    (msg : NormalizedOrderbook) (publishChanges : Bool) (now : Int) :
    ∃ n, d.run D J texts server (.message msg :: List.replicate n .get)
      = some { d with
          store := ((eventService J server d.events.db
            publishChanges).processMessage D d.store msg now).1 } := by
  obtain ⟨events, store, search⟩ := d
  obtain rfl : search = none := hidle
  have hprocess : ((eventService J server events.db
      publishChanges).processMessage D store msg now).1
        = (if (store.getCachedMarketMetadata msg.marketId).isNone then
            fetchAndCacheMarketMetadata
              (some (eventLookups J server events.db)) store msg.platform
              msg.marketId msg.clobTokenId
          else store).apply D msg := rfl
  have hstep : Deployment.step D J texts server ⟨events, store, none⟩
      (.message msg)
        = if (store.getCachedMarketMetadata msg.marketId).isNone then
            some ⟨events, store, some (.begin server events.db msg false)⟩
          else some ⟨events, store.apply D msg, none⟩ := rfl
  rw [hprocess]
  by_cases hnone : (store.getCachedMarketMetadata msg.marketId).isNone
  · rw [if_pos hnone, fetchAndCacheMarketMetadata_eq]
    rw [if_pos hnone] at hstep
    obtain ⟨n, hn⟩ := searches_run D J texts server events store msg
    refine ⟨n, ?_⟩
    unfold Deployment.run at hn ⊢
    rw [List.foldlM_cons, hstep]
    exact hn
  · rw [if_neg hnone]
    rw [if_neg hnone] at hstep
    refine ⟨0, ?_⟩
    unfold Deployment.run
    rw [List.foldlM_cons, hstep]
    rfl

end Wup.EventService
