/-
What the gateway's operations do to the clients' channels.

Everything the gateway sends goes through one bounded channel per client.
`Moved` says of an operation that it keeps the indexes and subscriptions
and leaves given messages in each channel. A send to a client with room
appends one message to its channel and no other (`moved_trySendRaw`); the
fan-out of an event does so for every client it matches, each once
because the lookup yields no client twice (`moved_handleChange`).
-/
import Wup.Gateway.Proofs.Lookup
import Wup.Gateway.WsServer

namespace Wup.Gateway

namespace ClientRegistry

/-- The messages waiting in a client's channel. -/
def channel (registry : ClientRegistry) (clientId : ClientId) :
    List Message :=
  ((registry.clients.lookup clientId).map (·.tx)).getD []

/-- An operation that only moves messages: `channel` is what waits in each
channel afterwards. -/
structure Moved (before after : ClientRegistry)
    (channel : ClientId → List Message) : Prop where
  indexed : after.Indexed
  holds : ∀ id s, after.Holds id s ↔ before.Holds id s
  present : ∀ id, (after.clients.lookup id).isSome
    = (before.clients.lookup id).isSome
  channel : ∀ id, after.channel id = channel id

variable {registry : ClientRegistry} {clientId id : ClientId}

theorem channel_eq {client : ClientState}
    (h : registry.clients.lookup clientId = some client) :
    registry.channel clientId = client.tx := by
  unfold channel
  rw [h]
  rfl

theorem channel_modifyClient (f : ClientState → ClientState) :
    (registry.modifyClient clientId f).channel id
      = if id = clientId then
          ((registry.clients.lookup clientId).map
            fun client => (f client).tx).getD []
        else registry.channel id := by
  unfold channel
  rw [lookup_modifyClient]
  by_cases hid : id = clientId
  · rw [if_pos hid, if_pos hid, Option.map_map]
    rfl
  · rw [if_neg hid, if_neg hid]

theorem present_modifyClient (f : ClientState → ClientState) :
    ((registry.modifyClient clientId f).clients.lookup id).isSome
      = (registry.clients.lookup id).isSome := by
  rw [lookup_modifyClient]
  by_cases hid : id = clientId
  · rw [if_pos hid, Option.isSome_map, hid]
  · rw [if_neg hid]

-- ================================================================== a send

/-- A send to a registered client with room. -/
theorem moved_trySendRaw (h : registry.Indexed) {client : ClientState}
    (hc : registry.clients.lookup clientId = some client)
    (hroom : client.HasRoom) (msg : Message) :
    Moved registry (registry.trySendRaw clientId msg).1
        (fun id => if id = clientId then registry.channel id ++ [msg]
          else registry.channel id)
      ∧ (registry.trySendRaw clientId msg).2 = true := by
  have hsend : client.trySendRaw msg
      = ({ client with tx := client.tx ++ [msg] }, true) := by
    unfold ClientState.trySendRaw
    rw [if_pos hroom]
  have hkeep : ∀ c : ClientState, (c.trySendRaw msg).1.id = c.id
      ∧ (c.trySendRaw msg).1.subscriptions = c.subscriptions := by
    intro c
    unfold ClientState.trySendRaw
    split <;> exact ⟨rfl, rfl⟩
  refine ⟨⟨?_, ?_, ?_, ?_⟩, ?_⟩
  · exact h.modifyClient clientId (fun c => (hkeep c).1)
      fun c => (hkeep c).2
  · exact fun id s => holds_modifyClient_frame fun c => (hkeep c).2
  · exact fun id => present_modifyClient _
  · intro id
    unfold trySendRaw
    rw [channel_modifyClient, hc]
    by_cases hid : id = clientId
    · rw [if_pos hid, if_pos hid, hid, channel_eq hc, Option.map_some,
        hsend]
      rfl
    · rw [if_neg hid, if_neg hid]
  · unfold trySendRaw
    rw [hc, Option.map_some, hsend]
    rfl

/-- The same for a message of the protocol. -/
theorem moved_send (h : registry.Indexed) {client : ClientState}
    (hc : registry.clients.lookup clientId = some client)
    (hroom : client.HasRoom) (msg : ServerMessage) :
    Moved registry (registry.send clientId msg).1
        (fun id => if id = clientId then registry.channel id ++ [.text msg]
          else registry.channel id)
      ∧ (registry.send clientId msg).2 = .ok () := by
  obtain ⟨hmoved, hsent⟩ := moved_trySendRaw h hc hroom (.text msg)
  refine ⟨hmoved, ?_⟩
  show (if (registry.trySendRaw clientId (.text msg)).2 = true then
    Except.ok () else _) = _
  rw [hsent, if_pos rfl]

/-- One message to each of several clients. -/
theorem moved_foldl_trySendRaw (msg : Message)
    {clients : List ClientState} (hnodup : (clients.map (·.id)).Nodup)
    (h : registry.Indexed)
    (hreg : ∀ client ∈ clients, registry.Registered client)
    (hroom : ∀ client ∈ clients, client.HasRoom) :
    Moved registry
      (clients.foldl (fun registry client =>
        (registry.trySendRaw client.id msg).1) registry)
      (fun id => if id ∈ clients.map (·.id) then
          registry.channel id ++ [msg]
        else registry.channel id) := by
  induction clients generalizing registry with
  | nil =>
      exact ⟨h, fun _ _ => Iff.rfl, fun _ => rfl, fun id => by simp⟩
  | cons client clients ih =>
      rw [List.map_cons, List.nodup_cons] at hnodup
      obtain ⟨hone, -⟩ := moved_trySendRaw h
        (hreg client (List.mem_cons_self ..))
        (hroom client (List.mem_cons_self ..)) msg
      -- the other clients are not touched by the first send
      have hother : ∀ c ∈ clients,
          (registry.trySendRaw client.id msg).1.Registered c := by
        intro c hc
        unfold Registered trySendRaw
        rw [lookup_modifyClient, if_neg]
        · exact hreg c (List.mem_cons_of_mem _ hc)
        · intro hid
          exact hnodup.1 (List.mem_map.2 ⟨c, hc, hid⟩)
      have hrest := ih hnodup.2 hone.indexed hother
        fun c hc => hroom c (List.mem_cons_of_mem _ hc)
      refine ⟨hrest.indexed, fun id s => ?_, fun id => ?_, fun id => ?_⟩
      · exact (hrest.holds id s).trans (hone.holds id s)
      · exact (hrest.present id).trans (hone.present id)
      · rw [List.foldl_cons, hrest.channel, hone.channel, List.map_cons]
        by_cases hid : id = client.id
        · subst hid
          rw [if_neg hnodup.1, if_pos rfl, if_pos (List.mem_cons_self ..)]
        · simp [hid]

/-- The fan-out of an event: everybody who holds a matching pattern gets
it, once. -/
theorem moved_handleChange (h : registry.Indexed)
    (event : AggregatedPriceChangeEvent)
    (hroom : ∀ client ∈ registry.getMatchingSubscribers
      (buildSubject event.marketId event.assetId), client.HasRoom) :
    Moved registry (handleChange registry event) fun id =>
      if id ∈ (registry.getMatchingSubscribers
          (buildSubject event.marketId event.assetId)).map (·.id) then
        registry.channel id ++ [.text (.priceChange (.ofEvent event))]
      else registry.channel id := by
  refine moved_foldl_trySendRaw _ ?_ h (fun client hc => ?_) hroom
  · exact nodup_filterMap_lookup h (registry.matchedClients _).nodup
  · exact ((mem_getMatchingSubscribers h).1 hc).1

/-- Who gets an event when nobody holds a wildcard pattern. -/
theorem mem_ids_getMatchingSubscribers (h : registry.Indexed)
    (hplain : ∀ id p, registry.Holds id p → isWildcardPattern p = false)
    {subject : String} :
    id ∈ (registry.getMatchingSubscribers subject).map (·.id)
      ↔ registry.Holds id subject := by
  rw [List.mem_map]
  refine ⟨fun hid => ?_, fun hholds => ?_⟩
  · obtain ⟨client, hc, rfl⟩ := hid
    obtain ⟨hreg, p, hp, hmatch⟩ := (mem_getMatchingSubscribers h).1 hc
    have hholds : registry.Holds client.id p := ⟨client, hreg, hp⟩
    obtain rfl :=
      (matchesSubject_exact (hplain client.id p hholds) subject).1 hmatch
    exact hholds
  · have hplain := hplain id subject hholds
    obtain ⟨client, hreg, hp⟩ := hholds
    have hid := h.ids id client hreg
    refine ⟨client, (mem_getMatchingSubscribers h).2 ⟨?_, subject, hp, ?_⟩,
      hid⟩
    · unfold Registered
      rw [hid, hreg]
    · exact (matchesSubject_exact hplain subject).2 rfl

-- =========================================================== subscriptions

theorem channel_subscribeTo {subject : String} :
    (subscribeTo clientId registry subject).channel id
      = registry.channel id := by
  rw [subscribeTo_eq]
  show (registry.modifyClient clientId _).channel id = _
  rw [channel_modifyClient]
  by_cases hid : id = clientId
  · rw [if_pos hid, hid]
    rfl
  · rw [if_neg hid]

/-- A subscription of a connected client with room to one subject: either
it is refused with an error message, or the client holds the subject, is
told so and waits for a snapshot. -/
theorem handleMessage_subscribe (h : registry.Indexed)
    {client : ClientState}
    (hc : registry.clients.lookup clientId = some client)
    (hroom : client.HasRoom) (now : Int) (subject : String) :
    let r := handleMessage registry clientId now (.subscribe [subject])
    (∃ text code, r.2 = [] ∧ Moved registry r.1 fun id =>
        if id = clientId then
          registry.channel id ++ [.text (.error text code)]
        else registry.channel id)
      ∨ (r.2 = [subject]
        ∧ Moved (subscribeTo clientId registry subject) r.1 fun id =>
          if id = clientId then
            registry.channel id ++ [.text (.subscribed [subject])]
          else registry.channel id) := by
  intro r
  cases hv : validatePattern subject with
  | some error =>
      have hr : r = ((registry.send clientId
          (.error (GatewayError.invalidSubject error).text
            "PROCESSING_ERROR")).1, []) := by
        simp only [r, handleMessage, handleClientMessage,
          List.findSome?_cons, hv]
      rw [hr]
      exact Or.inl ⟨_, _, rfl, (moved_send h hc hroom _).1⟩
  | none =>
      have hsub : registry.subscribe clientId [subject]
          = .ok (subscribeTo clientId registry subject) := by
        unfold ClientRegistry.subscribe
        rw [hc]
        rfl
      have hreg : (registry.clients.lookup clientId).isSome = true := by
        rw [hc]
        rfl
      have hc' : (subscribeTo clientId registry subject).clients.lookup
          clientId = some { client with
            subscriptions := client.subscriptions.insert subject } := by
        rw [subscribeTo_eq]
        show (registry.modifyClient clientId _).clients.lookup _ = _
        rw [lookup_modifyClient, if_pos rfl, hc]
        rfl
      obtain ⟨hmoved, hsent⟩ := moved_send (h.subscribeTo hreg) hc' hroom
        (.subscribed [subject])
      have hr : r = (((subscribeTo clientId registry subject).send clientId
          (.subscribed [subject])).1, [subject]) := by
        simp only [r, handleMessage, handleClientMessage,
          List.findSome?_cons, List.findSome?_nil, hv, hsub, hsent,
          Except.map]
      rw [hr]
      simp only [channel_subscribeTo] at hmoved
      exact Or.inr ⟨rfl, hmoved⟩

end ClientRegistry

end Wup.Gateway
