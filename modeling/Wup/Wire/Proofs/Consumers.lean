/-
What the consumers make of a published event.

The executor's cache reads the text of an event as the change it keeps of
the event (`OrderbookChange.fromSlice_toString`).

The gateway's shortcut makes no difference on any payload, well formed or
not (`handlePayload_getD`): the text of an event is routed as the event
(`handlePayload_toString`). Where both ways of reading the ids work they
agree: of an object they look at the same members, and an array has the
length for one of them only. What only the shortcut accepts is refused by
the full reading before anything is sent.
-/
import Wup.Wire.Consumers
import Wup.Wire.Proofs.Schema

namespace Wup

open Json
open ExternalServices (structFields readString readVec)

-- ============================================================ the executor

namespace Executor

theorem PlatformSize.ofValue_toValue (e : PlatformEntry) :
    PlatformSize.ofValue e.toValue = some ⟨e.platform, e.size⟩ := by
  unfold PlatformSize.ofValue PlatformEntry.toValue
  refine bind_ofMembers (by simp) fun field hfield => ?_
  simp only [List.forall_mem_cons] at hfield
  simp [hfield, readString]

theorem PriceChange.ofValue_toValue (c : AggregatedPriceLevelChange) :
    PriceChange.ofValue c.toValue = some (.ofChange c) := by
  have hplatforms := readVec_vecValue PlatformSize.ofValue_toValue
    c.platforms
  unfold PriceChange.ofValue AggregatedPriceLevelChange.toValue
  refine bind_ofMembers (by simp) fun field hfield => ?_
  simp only [List.forall_mem_cons] at hfield
  simp [hfield, readString, hplatforms, PriceChange.ofChange]

theorem OrderbookChange.ofValue_toValue (e : AggregatedPriceChangeEvent) :
    OrderbookChange.ofValue e.toValue = some (.ofEvent e) := by
  have hchanges := readVec_vecValue PriceChange.ofValue_toValue e.changes
  unfold OrderbookChange.ofValue AggregatedPriceChangeEvent.toValue
  refine bind_ofMembers (by simp) fun field hfield => ?_
  simp only [List.forall_mem_cons] at hfield
  simp [hfield, readString, hchanges, OrderbookChange.ofEvent]

/-- The cache receives what it keeps of the event. -/
theorem OrderbookChange.fromSlice_toString {J : SerdeJson} (hJ : J.Lawful)
    {e : AggregatedPriceChangeEvent}
    (htime : e.Timely) :
    OrderbookChange.fromSlice J (e.toString J) = some (.ofEvent e) := by
  unfold OrderbookChange.fromSlice
  rw [AggregatedPriceChangeEvent.fromStr_toString hJ htime,
    Option.bind_some]
  exact OrderbookChange.ofValue_toValue e

theorem BboCache.handlePayload_toString {D : RustDecimal} {J : SerdeJson}
    (hJ : J.Lawful) {e : AggregatedPriceChangeEvent}
    (htime : e.Timely)
    (cache : BboCache) :
    cache.handlePayload D J (e.toString J)
      = cache.handleChange D (.ofEvent e) := by
  unfold BboCache.handlePayload
  rw [OrderbookChange.fromSlice_toString hJ htime]

end Executor

-- ============================================================= the gateway

namespace Gateway

/-- Two readers of records with different numbers of fields that both
accept a value see the same members. -/
theorem structFields_agree {names names' : List String}
    (hlength : names.length ≠ names'.length) {v : Value}
    {field field' : String → Option Value}
    (h : structFields names v = some field)
    (h' : structFields names' v = some field') : field = field' := by
  cases v with
  | obj members =>
      obtain ⟨-, hfield⟩ := Option.ite_none_right_eq_some.1 h
      obtain ⟨-, hfield'⟩ := Option.ite_none_right_eq_some.1 h'
      exact (Option.some.inj hfield).symm.trans (Option.some.inj hfield')
  | arr elems =>
      obtain ⟨hlen, -⟩ := Option.ite_none_right_eq_some.1 h
      obtain ⟨hlen', -⟩ := Option.ite_none_right_eq_some.1 h'
      exact absurd (hlen.symm.trans hlen') hlength
  | _ => cases h

/-- The shortcut reads the ids of the event. -/
theorem ids_eq_of_ofValue {v : Value} {change : AggregatedPriceChangeEvent}
    {ids : String × String}
    (hids : IdExtractor.ofValue v = some ids)
    (hchange : AggregatedPriceChangeEvent.ofValue v = some change) :
    ids = (change.marketId, change.assetId) := by
  obtain ⟨field, hfield, hids⟩ := Option.bind_eq_some_iff.1 hids
  obtain ⟨marketId, hmarket, hids⟩ := Option.bind_eq_some_iff.1 hids
  obtain ⟨assetId, hasset, hids⟩ := Option.bind_eq_some_iff.1 hids
  obtain ⟨field', hfield', hchange⟩ := Option.bind_eq_some_iff.1 hchange
  obtain ⟨marketId', hmarket', hchange⟩ :=
    Option.bind_eq_some_iff.1 hchange
  obtain ⟨assetId', hasset', hchange⟩ := Option.bind_eq_some_iff.1 hchange
  obtain ⟨changes, -, hchange⟩ := Option.bind_eq_some_iff.1 hchange
  obtain ⟨timestampUs, -, hchange⟩ := Option.bind_eq_some_iff.1 hchange
  obtain rfl := Option.some.inj hids
  obtain rfl := Option.some.inj hchange
  obtain rfl := structFields_agree (by decide) hfield hfield'
  rw [hmarket] at hmarket'
  rw [hasset] at hasset'
  exact Prod.ext (Option.some.inj hmarket') (Option.some.inj hasset')

variable {J : SerdeJson}

/-- An event that can be read is routed by its own ids, whichever way they
are read. -/
theorem payloadIds_of_fromSlice {payload : String}
    {change : AggregatedPriceChangeEvent}
    (h : AggregatedPriceChangeEvent.fromSlice J payload = some change) :
    payloadIds J payload = some (change.marketId, change.assetId) := by
  unfold payloadIds
  rw [h, Option.map_some]
  cases hids : extractIdsFast J payload with
  | none => exact Option.none_or
  | some ids =>
      obtain ⟨v, hv, hfast⟩ := Option.bind_eq_some_iff.1 hids
      obtain ⟨v', hv', hfull⟩ := Option.bind_eq_some_iff.1 h
      rw [hv] at hv'
      obtain rfl := Option.some.inj hv'
      rw [Option.some_or, ids_eq_of_ofValue hfast hfull]

/-- An event that can be read is routed, whoever is subscribed. -/
theorem handlePayload_of_fromSlice (registry : ClientRegistry)
    {payload : String} {change : AggregatedPriceChangeEvent}
    (h : AggregatedPriceChangeEvent.fromSlice J payload = some change) :
    handlePayload J registry payload
      = some (handleChange registry change) := by
  unfold handlePayload
  rw [payloadIds_of_fromSlice h, Option.bind_some, h]
  by_cases hnone : registry.getMatchingSubscribers
      (buildSubject change.marketId change.assetId) = []
  · simp [handleChange, hnone]
  · simp [handleChange, hnone]

/-- The payload the orderbook service publishes an event with is routed by
the event's ids, and what is sent is the event. -/
theorem handlePayload_toString (hJ : J.Lawful)
    {e : AggregatedPriceChangeEvent} (htime : e.Timely)
    (registry : ClientRegistry) :
    handlePayload J registry (e.toString J)
      = some (handleChange registry e) := by
  refine handlePayload_of_fromSlice registry ?_
  exact AggregatedPriceChangeEvent.fromSlice_toString hJ htime

/-- The router does with a payload what it does with the event in it, if
there is one, and nothing else: reading the ids first changes nothing. -/
theorem handlePayload_getD (registry : ClientRegistry) (payload : String) :
    (handlePayload J registry payload).getD registry
      = ((AggregatedPriceChangeEvent.fromSlice J payload).map
          (handleChange registry)).getD registry := by
  cases h : AggregatedPriceChangeEvent.fromSlice J payload with
  | some change =>
      rw [handlePayload_of_fromSlice registry h, Option.map_some]
  | none =>
      unfold handlePayload
      rw [h]
      cases payloadIds J payload with
      | none => rfl
      | some ids =>
          by_cases hnone :
              registry.getMatchingSubscribers (buildSubject ids.1 ids.2) = []
          · simp [hnone]
          · simp [hnone]

/-- Reading the ids first, and the rest only for somebody, is as good as
reading the whole payload and routing the event: the same messages are
sent, on any payload. An error is reported where the event cannot be read,
except that nobody notices if the ids can be and nobody is subscribed. -/
theorem routing_shortcut (registry : ClientRegistry) (payload : String) :
    (handlePayload J registry payload).getD registry
        = ((AggregatedPriceChangeEvent.fromSlice J payload).map
            (handleChange registry)).getD registry
      ∧ (handlePayload J registry payload = none
          ↔ AggregatedPriceChangeEvent.fromSlice J payload = none
            ∧ ∀ ids ∈ extractIdsFast J payload,
              registry.getMatchingSubscribers (buildSubject ids.1 ids.2)
                ≠ []) := by
  refine ⟨handlePayload_getD registry payload, ?_⟩
  cases h : AggregatedPriceChangeEvent.fromSlice J payload with
  | some change =>
      rw [handlePayload_of_fromSlice registry h]
      simp
  | none =>
      unfold handlePayload
      have hids : payloadIds J payload = extractIdsFast J payload := by
        unfold payloadIds
        rw [h, Option.map_none, Option.or_none]
      rw [hids, h]
      cases extractIdsFast J payload with
      | none => simp
      | some ids => simp

end Gateway

end Wup
