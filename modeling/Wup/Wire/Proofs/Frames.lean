/-
What a connection publishes of a frame reaches the orderbook service as it
was meant.

The time of receipt of a normalized message was read as an `i64`, so its
text reads back; and whatever the market and the token are called, as
long as NATS takes the name, the subject is one the service subscribes to,
and an event's subject one its consumers subscribe to.
-/
import Wup.Normalizer.Service
import Wup.Wire.Consumers
import Wup.Wire.Proofs.Schema

namespace Wup

open Json
open Gateway (buildSubject)

-- =============================================================== the times

namespace Normalizer

theorem readI64Default_range {field : Option Value} {n : Int}
    (h : readI64Default field = some n) : -2 ^ 63 ≤ n ∧ n < 2 ^ 63 := by
  unfold readI64Default at h
  split at h
  · obtain rfl := Option.some.inj h
    decide
  · obtain ⟨hrange, hn⟩ := Option.ite_none_right_eq_some.1 h
    rwa [← Option.some.inj hn]
  · cases h

theorem RawBookMessage.range_of_ofValue {v : Value} {book : RawBookMessage}
    (h : RawBookMessage.ofValue v = some book) :
    -2 ^ 63 ≤ book.receivedAt ∧ book.receivedAt < 2 ^ 63 := by
  simp only [RawBookMessage.ofValue, Option.bind_eq_bind, Option.pure_def,
    Option.bind_eq_some_iff] at h
  obtain ⟨_, -, _, -, _, -, _, -, _, -, _, -, _, -, n, hn, hbook⟩ := h
  rw [← Option.some.inj hbook]
  exact readI64Default_range hn

theorem RawPriceChangeMessage.range_of_ofValue {v : Value}
    {msg : RawPriceChangeMessage}
    (h : RawPriceChangeMessage.ofValue v = some msg) :
    -2 ^ 63 ≤ msg.receivedAt ∧ msg.receivedAt < 2 ^ 63 := by
  simp only [RawPriceChangeMessage.ofValue, Option.bind_eq_bind,
    Option.pure_def, Option.bind_eq_some_iff] at h
  obtain ⟨_, -, _, -, _, -, _, -, _, -, n, hn, hmsg⟩ := h
  rw [← Option.some.inj hmsg]
  exact readI64Default_range hn

/-- What a message becomes has the message's time of receipt. -/
theorem range_of_transform {v : Value} {parsed : ParsedMessage}
    (h : ParsedMessage.parseValue v = some parsed) (order : GroupOrder)
    (normalizedAt : String) {out : NormalizedOrderbook}
    (hout : out ∈ parsed.transform order normalizedAt) :
    out.Timely := by
  unfold ParsedMessage.parseValue at h
  simp only at h
  split_ifs at h
  · obtain ⟨book, hbook, rfl⟩ := Option.map_eq_some_iff.1 h
    obtain rfl := List.mem_singleton.1 hout
    exact RawBookMessage.range_of_ofValue hbook
  · obtain ⟨msg, hmsg, rfl⟩ := Option.map_eq_some_iff.1 h
    obtain ⟨group, -, rfl⟩ := List.mem_map.1 hout
    exact RawPriceChangeMessage.range_of_ofValue hmsg
  · obtain rfl := Option.some.inj h
    cases hout

theorem exists_of_mem_mapM {α β : Type*} {f : α → Option β} {as : List α}
    {bs : List β} (h : as.mapM f = some bs) {b : β} (hb : b ∈ bs) :
    ∃ a ∈ as, f a = some b := by
  induction as generalizing bs with
  | nil =>
      obtain rfl := Option.some.inj h
      cases hb
  | cons a as ih =>
      rw [List.mapM_cons] at h
      obtain ⟨b', ha, hrest⟩ := Option.bind_eq_some_iff.1 h
      obtain ⟨bs', has, hbs⟩ := Option.bind_eq_some_iff.1 hrest
      obtain rfl := Option.some.inj hbs
      rcases List.mem_cons.1 hb with rfl | hb
      · exact ⟨a, List.mem_cons_self, ha⟩
      · obtain ⟨a', ha', hf⟩ := ih has hb
        exact ⟨a', List.mem_cons_of_mem a ha', hf⟩

/-- What a payload normalizes to has times of receipt in range. -/
theorem range_of_mem_normalize {J : SerdeJson} {orders : GroupOrders}
    {normalizedAt payload : String} {out : NormalizedOrderbook}
    (h : out ∈ normalize J orders normalizedAt payload) :
    out.Timely := by
  unfold normalize PolymarketAdapter.parseAndTransform at h
  cases hparsed : ParsedMessage.parseAll J payload with
  | none =>
      rw [hparsed] at h
      cases h
  | some parsed =>
      rw [hparsed] at h
      obtain ⟨⟨msg, i⟩, hmsg, hout⟩ := List.mem_flatMap.1 h
      obtain ⟨v, -, hv⟩ := Option.bind_eq_some_iff.1 hparsed
      obtain ⟨obj, -, hobj⟩ := exists_of_mem_mapM hv
        (List.fst_mem_of_mem_zipIdx hmsg)
      exact range_of_transform hobj (orders i) normalizedAt hout

end Normalizer

-- ============================================================ the subjects

/-- Whatever follows its name, what is published under a subject goes to
the name with the rest open. -/
theorem Nats.Lawful.isMatch_buildSubject {nats : Nats} (h : nats.Lawful)
    {name rest : String} (hname : LegalSubject name)
    (hrest : LegalSubject rest) :
    nats.isMatch (name ++ ".>") (buildSubject name rest) = true := by
  have hsubject := legalSubject_buildSubject.2 ⟨hname, hrest⟩
  have hstarts : (buildSubject name rest).toList
      = (name ++ ".").toList ++ rest.toList := String.toList_append
  rw [h.isMatch_rest hname hsubject, hstarts]
  exact List.prefix_append ..

namespace Normalizer

variable (J : SerdeJson)

theorem subject_publishNormalized (config : AdapterConfig)
    (msg : NormalizedOrderbook) :
    (publishNormalized J config msg).subject
      = buildSubject config.outputSubjectPrefix
          (buildSubject msg.marketId msg.clobTokenId) := by
  simp [publishNormalized, buildSubject,
    PolymarketAdapter.buildOutputSubject, String.append_assoc]

/-- Normalizing inline publishes what the service would publish for the
stamped frame. -/
theorem onMessage_eq_processMessage (orders : GroupOrders)
    (normalizedAt : String) (receivedAt : Int) (msg : String) :
    Polymarket.PolymarketHandler.onMessage J orders normalizedAt receivedAt
        msg
      = processMessage J PolymarketAdapter.defaultConfig orders normalizedAt
          (Polymarket.injectReceivedAt msg receivedAt) := by
  have hprefix : "normalized." ++ PolymarketAdapter.name
      = "normalized.polymarket" := by
    simp [PolymarketAdapter.name]
  unfold Polymarket.PolymarketHandler.onMessage processMessage
  simp only [PolymarketAdapter.defaultConfig, hprefix,
    Polymarket.PolymarketHandler.adapterConfig]
  rfl

/-- Whatever normalized messages are published, by the handler or by the
normalizer service as it is configured: the stream the aggregator makes
sure of keeps every one of them, the stream the service makes sure of
none. -/
theorem streams_keep {nats : Nats} (hnats : nats.Lawful)
    {msg : NormalizedOrderbook} (hmarket : LegalSubject msg.marketId)
    (htoken : LegalSubject msg.clobTokenId) :
    (ensureNormalizedStream PolymarketAdapter.name).Captures nats
        (publishNormalized J Polymarket.PolymarketHandler.adapterConfig msg)
      ∧ (ensureNormalizedStream PolymarketAdapter.name).Captures nats
          (publishNormalized J PolymarketAdapter.defaultConfig msg)
      ∧ ¬ (ensureNormalizedStream
            PolymarketAdapter.defaultConfig.destStream).Captures nats
          (publishNormalized J PolymarketAdapter.defaultConfig msg) := by
  have hname : "normalized" ++ "." ++ PolymarketAdapter.name ++ ".>"
      = "normalized.polymarket" ++ ".>" := by
    simp [PolymarketAdapter.name]
  have hdest : "normalized" ++ "."
      ++ PolymarketAdapter.defaultConfig.destStream ++ ".>"
        = "normalized.NORMALIZED_DATA" ++ ".>" := by
    simp [PolymarketAdapter.defaultConfig]
  have hprefix : PolymarketAdapter.defaultConfig.outputSubjectPrefix
      = "normalized.polymarket" := by
    simp [PolymarketAdapter.defaultConfig, PolymarketAdapter.name]
  have hids := legalSubject_buildSubject.2 ⟨hmarket, htoken⟩
  have hplain : LegalSubject "normalized.polymarket" := by decide
  have hsubject := legalSubject_buildSubject.2 ⟨hplain, hids⟩
  have hkept := hnats.isMatch_buildSubject hplain hids
  have hother : ¬ nats.isMatch ("normalized.NORMALIZED_DATA" ++ ".>")
      (buildSubject "normalized.polymarket"
        (buildSubject msg.marketId msg.clobTokenId)) = true := by
    rw [hnats.isMatch_rest (by decide) hsubject]
    intro hstarts
    -- the two part at the eleventh character
    have hpart := hstarts.getElem (i := 11) (by decide)
    simp [buildSubject] at hpart
  simp only [ensureNormalizedStream, StreamConfig.forService,
    StreamConfig.Captures, Nats.Delivers, List.exists_mem_cons_iff,
    List.not_mem_nil, false_and, exists_false, or_false, hname, hdest,
    subject_publishNormalized, hprefix,
    Polymarket.PolymarketHandler.adapterConfig]
  exact ⟨hkept, hkept, hother⟩

/-- The stream for one message. -/
theorem streams_keep_one_message :
    (ensureNormalizedStream PolymarketAdapter.name).Captures simpleNats
      (publishNormalized compactJson PolymarketAdapter.defaultConfig
        (.deltaOf "polymarket" "m" "t" [])) :=
  (streams_keep compactJson simpleNats_lawful (by decide) (by decide)).2.1

end Normalizer

end Wup
