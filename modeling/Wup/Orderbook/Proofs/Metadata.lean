/-
Whose metadata a market has.

Metadata is fetched for a message only while the market has none at all,
and a record is made of the fetching message's platform alone. So the
first message of a market that Redis knows anything of settles the
market's record for good (`cached_run`): nothing is ever lost, and no
other platform is ever added. A platform's slug is there after its message
exactly when that first message was of the same platform and found the
same (`accumulates_iff`).
-/
import Wup.Orderbook.Proofs.Replication

namespace Wup

variable (D : RustDecimal) (redis : RedisClient)

-- ============================================================= one message

/-- What Redis has for a message: by token id, else by market id. -/
def RedisClient.found (msg : NormalizedOrderbook) :
    Option (String × MarketData) :=
  (redis.findMarketByTokenId msg.platform msg.clobTokenId).or
    (redis.findMarketById msg.platform msg.marketId)

/-- The record made of what was found for a platform. -/
def metadataOf (platform : String) (found : String × MarketData) :
    MarketMetadata where
  questions := match found.2.question with
    | some question => (∅ : HashMap String String).insert platform question
    | none => ∅
  slugs := (∅ : HashMap String String).insert platform found.1

theorem slugs_metadataOf (platform p : String)
    (found : String × MarketData) :
    (metadataOf platform found).slugs.lookup p
      = if p = platform then some found.1 else none := by
  unfold metadataOf
  rw [HashMap.lookup_insert', AList.lookup_empty]

theorem questions_metadataOf (platform p : String)
    (found : String × MarketData) :
    (metadataOf platform found).questions.lookup p
      = if p = platform then found.2.question else none := by
  unfold metadataOf
  cases found.2.question with
  | none => simp
  | some question => rw [HashMap.lookup_insert', AList.lookup_empty]

/-- The platform a message names and what Redis has for it, if the message
is of the market and Redis has anything. -/
def RedisClient.known (marketId : String) (msg : NormalizedOrderbook) :
    Option (String × String × MarketData) :=
  if msg.marketId = marketId then
    (redis.found msg).map fun found => (msg.platform, found)
  else none

variable {D redis}

theorem fetchAndCacheMarketMetadata_eq (store : OrderbookStore)
    (msg : NormalizedOrderbook) :
    fetchAndCacheMarketMetadata (some redis) store msg.platform
        msg.marketId msg.clobTokenId
      = ((redis.found msg).map fun found =>
          store.cacheMarketMetadata msg.marketId
            (metadataOf msg.platform found)).getD store := by
  unfold fetchAndCacheMarketMetadata RedisClient.found
  cases h : (redis.findMarketByTokenId msg.platform msg.clobTokenId).or
      (redis.findMarketById msg.platform msg.marketId) with
  | none =>
      simp only [h]
      rfl
  | some found =>
      simp only [h]
      rfl

theorem cached_fetch (store : OrderbookStore) (msg : NormalizedOrderbook)
    (m : String) :
    (fetchAndCacheMarketMetadata (some redis) store msg.platform
        msg.marketId msg.clobTokenId).getCachedMarketMetadata m
      = ((redis.known m msg).map fun k => metadataOf k.1 k.2).or
          (store.getCachedMarketMetadata m) := by
  rw [fetchAndCacheMarketMetadata_eq, RedisClient.known]
  cases redis.found msg with
  | none => simp
  | some found =>
      show AList.lookup m (store.marketMetadataCache.insert msg.marketId
        (metadataOf msg.platform found)) = _
      rw [HashMap.lookup_insert']
      by_cases hm : m = msg.marketId
      · rw [if_pos hm, if_pos hm.symm]
        rfl
      · rw [if_neg hm, if_neg (Ne.symm hm)]
        rfl

/-- A message settles the record of its market, if there is none. -/
theorem cached_processMessage (publishChanges : Bool)
    (store : OrderbookStore) (msg : NormalizedOrderbook) (now : Int)
    (m : String) :
    ((OrderbookService.mk (some redis) publishChanges).processMessage D
        store msg now).1.getCachedMarketMetadata m
      = (store.getCachedMarketMetadata m).or
          ((redis.known m msg).map fun k => metadataOf k.1 k.2) := by
  show (if (store.getCachedMarketMetadata msg.marketId).isNone then
    fetchAndCacheMarketMetadata (some redis) store msg.platform msg.marketId
      msg.clobTokenId else store).getCachedMarketMetadata m = _
  by_cases hm : msg.marketId = m
  · subst hm
    cases hcached : store.getCachedMarketMetadata msg.marketId with
    | none =>
        rw [Option.isNone_none, if_pos rfl, cached_fetch, hcached,
          Option.or_none, Option.none_or]
    | some metadata =>
        rw [Option.isNone_some, if_neg Bool.false_ne_true, hcached]
        rfl
  · have hother : redis.known m msg = none := if_neg hm
    rw [hother]
    split
    · rw [cached_fetch, hother, Option.map_none, Option.none_or,
        Option.or_none]
    · rw [Option.map_none, Option.or_none]

-- ================================================================= the run

/-- The first message of the market that Redis knows anything of: its
platform and what Redis has. -/
def RedisClient.firstKnown (redis : RedisClient) (marketId : String)
    (msgs : List NormalizedOrderbook) :
    Option (String × String × MarketData) :=
  msgs.findSome? (redis.known marketId)

/-- After any run, the record of a market is the one its first known
message made. -/
theorem cached_run (publishChanges : Bool)
    (msgs : List (NormalizedOrderbook × Int)) (m : String) :
    ((OrderbookService.mk (some redis) publishChanges).run D .new
        msgs).1.getCachedMarketMetadata m
      = (redis.firstKnown m (msgs.map (·.1))).map fun k =>
          metadataOf k.1 k.2 := by
  induction msgs using List.reverseRecOn with
  | nil => rfl
  | append_singleton msgs msg ih =>
      rw [OrderbookService.run_concat, cached_processMessage, ih]
      unfold RedisClient.firstKnown
      rw [List.map_append, List.findSome?_append, List.map_singleton,
        Option.map_or]
      simp

/-- What a message should leave in the cache: the slug of its platform,
and the question if there is one, when Redis finds its token; and what the
other platforms had. -/
structure Accumulates (redis : RedisClient) (msg : NormalizedOrderbook)
    (before after : OrderbookStore) : Prop where
  own : ∀ slug market,
    redis.findMarketByTokenId msg.platform msg.clobTokenId
      = some (slug, market) →
    ∃ metadata, after.getCachedMarketMetadata msg.marketId = some metadata
      ∧ metadata.slugs.lookup msg.platform = some slug
      ∧ ∀ question, market.question = some question →
        metadata.questions.lookup msg.platform = some question
  others : ∀ platform, platform ≠ msg.platform →
    ∀ metadata, before.getCachedMarketMetadata msg.marketId
      = some metadata →
    ∃ metadata', after.getCachedMarketMetadata msg.marketId
        = some metadata'
      ∧ (∀ slug, metadata.slugs.lookup platform = some slug →
        metadata'.slugs.lookup platform = some slug)
      ∧ ∀ question, metadata.questions.lookup platform = some question →
        metadata'.questions.lookup platform = some question

/-- The market's first known message was of the same platform and found
the same. -/
def SettledAlike (redis : RedisClient) (msgs : List NormalizedOrderbook)
    (msg : NormalizedOrderbook) : Prop :=
  ∀ slug market,
    redis.findMarketByTokenId msg.platform msg.clobTokenId
      = some (slug, market) →
    ∃ first, redis.firstKnown msg.marketId (msgs ++ [msg])
        = some (msg.platform, slug, first)
      ∧ ∀ question, market.question = some question →
        first.question = some question

/-- In every run, a message leaves what it should in the cache exactly when
the first message of its market that Redis knew anything of was of the
same platform and found the same. -/
theorem accumulates_iff (D : RustDecimal) (redis : RedisClient)
    (publishChanges : Bool) (msgs : List (NormalizedOrderbook × Int))
    (msg : NormalizedOrderbook × Int) :
    Accumulates redis msg.1
        ((OrderbookService.mk (some redis) publishChanges).run D .new
          msgs).1
        ((OrderbookService.mk (some redis) publishChanges).run D .new
          (msgs ++ [msg])).1
      ↔ SettledAlike redis (msgs.map (·.1)) msg.1 := by
  have hafter := @cached_run D redis publishChanges (msgs ++ [msg])
    msg.1.marketId
  rw [List.map_append, List.map_singleton] at hafter
  refine ⟨fun h slug market hfound => ?_,
    fun h => ⟨fun slug market hfound => ?_,
      fun platform _ metadata hbefore => ?_⟩⟩
  · obtain ⟨metadata, hcached, hslug, hquestion⟩ := h.own slug market hfound
    rw [hafter] at hcached
    obtain ⟨⟨platform, first⟩, hfirst, rfl⟩ :=
      Option.map_eq_some_iff.1 hcached
    rw [slugs_metadataOf] at hslug
    simp only [questions_metadataOf] at hquestion
    split at hslug
    · next hplatform =>
        obtain rfl := Option.some.inj hslug
        simp only [if_pos hplatform] at hquestion
        refine ⟨first.2, ?_, hquestion⟩
        exact hfirst.trans (by rw [hplatform])
    · cases hslug
  · obtain ⟨first, hfirst, hquestion⟩ := h slug market hfound
    rw [hfirst] at hafter
    refine ⟨_, hafter, ?_, fun question hq => ?_⟩
    · rw [slugs_metadataOf, if_pos rfl]
    · rw [questions_metadataOf, if_pos rfl]
      exact hquestion question hq
  · refine ⟨metadata, ?_, fun _ hs => hs, fun _ hq => hq⟩
    rw [OrderbookService.run_concat, cached_processMessage, hbefore]
    rfl

/-- Two platforms list one market, and only the first to mention it gets
its slug in. -/
theorem second_platform_missing :
    ¬ ∀ (redis : RedisClient) (msgs : List (NormalizedOrderbook × Int))
      (msg : NormalizedOrderbook × Int),
      Accumulates redis msg.1
        ((OrderbookService.mk (some redis) true).run fixedPoint .new msgs).1
        ((OrderbookService.mk (some redis) true).run fixedPoint .new
          (msgs ++ [msg])).1 := by
  let redis : RedisClient :=
    { findMarketByTokenId := fun platform _ =>
        if platform = "polymarket" then some ("p-event", ⟨"p1", none⟩)
        else some ("k-event", ⟨"k1", none⟩)
      findMarketById := fun _ _ => none }
  let msgs : List (NormalizedOrderbook × Int) :=
    [(.deltaOf "polymarket" "m" "t" [], 1)]
  let msg : NormalizedOrderbook × Int := (.deltaOf "kalshi" "m" "u" [], 2)
  have hcached : (((OrderbookService.mk (some redis) true).run fixedPoint
      .new (msgs ++ [msg])).1.getCachedMarketMetadata "m").bind
        (fun metadata => metadata.slugs.lookup "kalshi") = none := by
    decide +kernel
  intro h
  obtain ⟨metadata, hmetadata, hslug, -⟩ :=
    (h redis msgs msg).own "k-event" ⟨"k1", none⟩ rfl
  have hmarket : msg.1.marketId = "m" := rfl
  have hplatform : msg.1.platform = "kalshi" := rfl
  rw [hmarket] at hmetadata
  rw [hplatform] at hslug
  rw [hmetadata, Option.bind_some, hslug] at hcached
  cases hcached

end Wup
