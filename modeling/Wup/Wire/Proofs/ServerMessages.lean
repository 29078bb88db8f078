/-
The text of a message to a client determines it.

The gateway only writes these messages. `ServerMessage.ofValue` is how a
client reads them, the kind first and then the fields of that kind; it
gets back what was written, if the time in it fits its type
(`fromStr_toString`). Times come from the clock and from published events,
so in a run in which those fit every message in every channel reads back
(`messages_read_back`).
-/
import Wup.Wire.Proofs.Clients
import Wup.Wire.Proofs.Responses

namespace Wup.Gateway

open Json
open ExternalServices (structFields readString readVec readOption
  readInt_int)

-- ================================================================= reading

def OrderbookData.ofValue (v : Value) : Option OrderbookData := do
  let field ← structFields
    ["market_id", "asset_id", "platforms", "bids", "asks",
      "system_best_bid", "system_best_ask", "timestamp_us"] v
  let marketId ← (field "market_id").bind readString
  let assetId ← (field "asset_id").bind readString
  let platforms ← (field "platforms").bind (readVec readString)
  let bids ← (field "bids").bind (readVec readHttpLevel)
  let asks ← (field "asks").bind (readVec readHttpLevel)
  let systemBestBid ← readOption readString (field "system_best_bid")
  let systemBestAsk ← readOption readString (field "system_best_ask")
  let timestampUs ← (field "timestamp_us").bind
    (ExternalServices.readInt (-2 ^ 63) (2 ^ 63))
  return ⟨marketId, assetId, platforms, bids, asks, systemBestBid,
    systemBestAsk, timestampUs⟩

def PriceChangeData.ofValue (v : Value) : Option PriceChangeData := do
  let field ← structFields
    ["market_id", "asset_id", "changes", "timestamp_us"] v
  let marketId ← (field "market_id").bind readString
  let assetId ← (field "asset_id").bind readString
  let changes ← (field "changes").bind
    (readVec AggregatedPriceLevelChange.ofValue)
  let timestampUs ← (field "timestamp_us").bind
    (ExternalServices.readInt (-2 ^ 63) (2 ^ 63))
  return ⟨marketId, assetId, changes, timestampUs⟩

/-- The two texts of an error. -/
def readError (v : Value) : Option ServerMessage := do
  let field ← structFields ["message", "code"] v
  let message ← (field "message").bind readString
  let code ← (field "code").bind readString
  return .error message code

/-- A client reads a message. -/
def ServerMessage.ofValue (v : Value) : Option ServerMessage :=
  (readTagged "type" v).bind fun e =>
    if e.1 = "snapshot" then (OrderbookData.ofValue e.2).map .snapshot
    else if e.1 = "price_change" then
      (PriceChangeData.ofValue e.2).map .priceChange
    else if e.1 = "pong" then (readUnit e.2).map fun _ => .pong
    else if e.1 = "subscribed" then (readSubjects e.2).map .subscribed
    else if e.1 = "unsubscribed" then (readSubjects e.2).map .unsubscribed
    else if e.1 = "error" then readError e.2
    else none

def ServerMessage.fromStr (J : SerdeJson) (text : String) :
    Option ServerMessage :=
  (J.fromStr text).bind ServerMessage.ofValue

/-- The time in a message fits its type. -/
def ServerMessage.Timely : ServerMessage → Prop
  | .snapshot data => -2 ^ 63 ≤ data.timestampUs ∧ data.timestampUs < 2 ^ 63
  | .priceChange data =>
      -2 ^ 63 ≤ data.timestampUs ∧ data.timestampUs < 2 ^ 63
  | _ => True

-- ============================================================= round trips

theorem readVec_str (texts : List String) :
    readVec readString (vecValue .str texts) = some texts := by
  refine readVec_self ?_ texts
  exact fun _ => rfl

theorem OrderbookData.ofValue_fields {d : OrderbookData}
    (htime : -2 ^ 63 ≤ d.timestampUs ∧ d.timestampUs < 2 ^ 63) :
    OrderbookData.ofValue (.ofFields d.fields) = some d := by
  unfold OrderbookData.ofValue OrderbookData.fields
  refine bind_ofFields (by simp) fun field hfield => ?_
  simp only [List.forall_mem_cons] at hfield
  have hlevels := readVec_self readHttpLevel_toValue
  -- steps by definition would have the kernel unfold the bounds
  simp -implicitDefEqProofs [-Int.reducePow, hfield, readString, readVec_str,
    hlevels, readOption_map_str, readInt_int htime]

theorem PriceChangeData.ofValue_fields {d : PriceChangeData}
    (htime : -2 ^ 63 ≤ d.timestampUs ∧ d.timestampUs < 2 ^ 63) :
    PriceChangeData.ofValue (.ofFields d.fields) = some d := by
  unfold PriceChangeData.ofValue PriceChangeData.fields
  refine bind_ofFields (by simp) fun field hfield => ?_
  simp only [List.forall_mem_cons] at hfield
  have hchanges := readVec_self
    AggregatedPriceLevelChange.ofValue_toValue d.changes
  simp -implicitDefEqProofs [-Int.reducePow, hfield, readString, hchanges,
    readInt_int htime]

theorem readSubjects_fields (subjects : List String) :
    readSubjects
        (.ofFields [("subjects", some (vecValue .str subjects))])
      = some subjects := by
  unfold readSubjects
  refine bind_ofFields (by simp) fun field hfield => ?_
  simp only [List.forall_mem_cons] at hfield
  simp [hfield, readVec_str]

theorem readError_fields (message code : String) :
    readError (.ofFields
        [("message", some (.str message)), ("code", some (.str code))])
      = some (.error message code) := by
  unfold readError
  refine bind_ofFields (by simp) fun field hfield => ?_
  simp only [List.forall_mem_cons] at hfield
  simp [hfield, readString]

/-- No kind has a field of the name of the tag. -/
theorem ServerMessage.type_not_mem_fields (msg : ServerMessage) :
    "type" ∉ msg.fields.map (·.1) := by
  cases msg <;> simp [fields, OrderbookData.fields, PriceChangeData.fields]

theorem ServerMessage.ofValue_toValue {msg : ServerMessage}
    (h : msg.Timely) : ServerMessage.ofValue msg.toValue = some msg := by
  unfold ServerMessage.ofValue ServerMessage.toValue
  rw [readTagged_ofFields msg.type_not_mem_fields, Option.bind_some]
  cases msg with
  | snapshot data =>
      simp [kind, fields, OrderbookData.ofValue_fields h]
  | priceChange data =>
      simp [kind, fields, PriceChangeData.ofValue_fields h]
  | pong => rfl
  | subscribed subjects => simp [kind, fields, readSubjects_fields]
  | unsubscribed subjects => simp [kind, fields, readSubjects_fields]
  | error message code => simp [kind, fields, readError_fields]

-- ================================================================= as text

section Text

variable {J : SerdeJson}

theorem printable_texts {number : List Char → Option Number} {n : Nat}
    (texts : List String) :
    Node.Printable number (n + 1) (vecValue .str texts) :=
  printable_vecValue fun s _ => .str s

theorem ServerMessage.printable (hJ : J.Lawful) {msg : ServerMessage}
    (h : msg.Timely) : Node.Printable J.number 5 msg.toValue := by
  have hsome : ∀ w, Node.Printable J.number 4 w → ∀ v ∈ some w,
      Node.Printable J.number 4 v := by
    intro w hw v hv
    rwa [← Option.some.inj hv]
  have hprice : ∀ o : Option String, ∀ v ∈ o.map Node.str,
      Node.Printable J.number 4 v := by
    intro o v hv
    obtain ⟨s, -, rfl⟩ := Option.map_eq_some_iff.1 hv
    exact .str s
  have hlevels : ∀ levels : List AggregatedPriceLevel,
      Node.Printable J.number 4
        (vecValue AggregatedPriceLevel.toValue levels) :=
    fun _ => printable_vecValue fun l _ => l.printable
  refine .ofFields (List.nodup_cons.2 ⟨msg.type_not_mem_fields, ?_⟩) ?_
  · cases msg <;>
      simp [fields, OrderbookData.fields, PriceChangeData.fields]
  · refine List.forall_mem_cons.2 ⟨hsome _ (.str _), ?_⟩
    cases msg with
    | snapshot data =>
        have htime := hJ.number_intText h.1 h.2
        simp only [fields, OrderbookData.fields, List.forall_mem_cons]
        exact ⟨hsome _ (.str _), hsome _ (.str _),
          hsome _ (printable_texts _), hsome _ (hlevels _),
          hsome _ (hlevels _), hprice _, hprice _, hsome _ (.int htime),
          nofun⟩
    | priceChange data =>
        have htime := hJ.number_intText h.1 h.2
        have hchanges : Node.Printable J.number 4
            (vecValue AggregatedPriceLevelChange.toValue data.changes) :=
          printable_vecValue fun c _ => c.printable
        simp only [fields, PriceChangeData.fields, List.forall_mem_cons]
        exact ⟨hsome _ (.str _), hsome _ (.str _), hsome _ hchanges,
          hsome _ (.int htime), nofun⟩
    | pong => exact nofun
    | subscribed subjects =>
        simp only [fields, List.forall_mem_cons]
        exact ⟨hsome _ (printable_texts _), nofun⟩
    | unsubscribed subjects =>
        simp only [fields, List.forall_mem_cons]
        exact ⟨hsome _ (printable_texts _), nofun⟩
    | error message code =>
        simp only [fields, List.forall_mem_cons]
        exact ⟨hsome _ (.str _), hsome _ (.str _), nofun⟩

/-- What is sent to a client is what it reads. -/
theorem ServerMessage.fromStr_toString (hJ : J.Lawful) {msg : ServerMessage}
    (h : msg.Timely) :
    ServerMessage.fromStr J (msg.toString J) = some msg := by
  unfold ServerMessage.fromStr ServerMessage.toString
  rw [hJ.fromStr_of_printable (printable hJ h) (by decide), Option.bind_some]
  exact ofValue_toValue h

end Text

-- ================================================================ channels

namespace ClientRegistry

/-- All messages in all channels have a property. -/
def Carries (P : Message → Prop) (registry : ClientRegistry) : Prop :=
  ∀ id, ∀ v ∈ registry.view id, ∀ msg ∈ v.1, P msg

variable {P : Message → Prop} {registry : ClientRegistry}
  {clientId : ClientId}

/-- Nothing new in any channel. -/
theorem Carries.congr {after : ClientRegistry} (h : registry.Carries P)
    (hview : ∀ id, ∀ v' ∈ after.view id, ∃ v ∈ registry.view id,
      v'.1 <:+ v.1) : after.Carries P := by
  intro id v' hv' msg hmsg
  obtain ⟨v, hv, hsuffix⟩ := hview id v' hv'
  exact h id v hv msg (hsuffix.subset hmsg)

/-- An operation on one client that adds nothing to its channel. -/
theorem Carries.moved {after : ClientRegistry} (h : registry.Carries P)
    {g : List Message × HashSet String → List Message × HashSet String}
    (hg : ∀ v, (g v).1 <:+ v.1)
    (hview : ∀ id, after.view id = if id = clientId then
        (registry.view id).map g
      else registry.view id) : after.Carries P := by
  refine h.congr fun id v' hv' => ?_
  rw [hview] at hv'
  split at hv'
  · obtain ⟨v, hv, rfl⟩ := Option.map_eq_some_iff.1 hv'
    exact ⟨v, hv, hg v⟩
  · exact ⟨v', hv', List.suffix_refl _⟩

theorem Carries.trySendRaw (h : registry.Carries P) (clientId : ClientId)
    {msg : Message} (hmsg : P msg) :
    (registry.trySendRaw clientId msg).1.Carries P := by
  intro id v' hv'
  rw [view_trySendRaw] at hv'
  split at hv'
  · obtain ⟨v, hv, rfl⟩ := Option.map_eq_some_iff.1 hv'
    simp only
    split
    · exact List.forall_mem_append.2
        ⟨h id v hv, List.forall_mem_singleton.2 hmsg⟩
    · exact h id v hv
  · exact h id v' hv'

theorem Carries.subscribe (h : registry.Carries P) {subjects : List String}
    {after : ClientRegistry}
    (hafter : registry.subscribe clientId subjects = .ok after) :
    after.Carries P := by
  unfold ClientRegistry.subscribe at hafter
  split at hafter
  · cases hafter
  · rw [← Except.ok.inj hafter]
    exact h.moved (g := fun v => (v.1, subjects.foldl HashSet.insert v.2))
      (fun _ => List.suffix_refl _)
      fun id => view_foldl (f := subscribeTo clientId)
        (fun _ s => view_subscribeTo s) subjects

theorem Carries.unsubscribe (h : registry.Carries P) {subjects : List String}
    {after : ClientRegistry}
    (hafter : registry.unsubscribe clientId subjects = .ok after) :
    after.Carries P := by
  unfold ClientRegistry.unsubscribe at hafter
  split at hafter
  · cases hafter
  · rw [← Except.ok.inj hafter]
    exact h.moved (g := fun v => (v.1, subjects.foldl HashSet.remove v.2))
      (fun _ => List.suffix_refl _)
      fun id => view_foldl (f := unsubscribeFrom clientId)
        (fun _ s => view_unsubscribeFrom s) subjects

/-- What all messages have that are put into channels, all messages in
channels have. -/
theorem keptBy_carries
    (hnotice : ∀ msg, (∀ data, msg ≠ .text (.snapshot data)) →
      (∀ data, msg ≠ .text (.priceChange data)) → P msg) :
    KeptBy (Carries P) P where
  notice := hnotice
  register registry clientId now _ h := by
    intro id v' hv' msg hmsg
    rw [view_register] at hv'
    split at hv'
    · rw [← Option.some.inj hv'] at hmsg
      cases hmsg
    · exact h id v' hv' msg hmsg
  unregister registry clientId h := by
    refine h.congr fun id v' hv' => ?_
    rw [view_unregister] at hv'
    split at hv'
    · cases hv'
    · exact ⟨v', hv', List.suffix_refl _⟩
  subscribe _ _ _ _ hafter h := h.subscribe hafter
  unsubscribe _ _ _ _ hafter h := h.unsubscribe hafter
  updatePing registry clientId now h :=
    h.moved (g := fun v => v) (fun _ => List.suffix_refl _)
      fun id => view_modifyClient fun _ => rfl
  trySendRaw _ clientId _ hmsg h := h.trySendRaw clientId hmsg
  take registry clientId h :=
    h.moved (g := fun v => (v.1.tail, v.2)) (fun v => List.tail_suffix v.1)
      fun id => view_modifyClient fun _ => rfl

end ClientRegistry

-- ================================================================= the run

namespace Conversation

open Runs (Reached)

/-- The times a step brings fit their types: the clock's, and that of a
published event. -/
def Timely : ConversationAction → Prop
  | .socket (.snapshot _ _ now) => -2 ^ 63 ≤ now ∧ now < 2 ^ 63
  | .socket (.route event) => event.Timely
  | _ => True

instance : (action : ConversationAction) → Decidable (Timely action)
  | .socket (.snapshot _ _ _) => inferInstanceAs (Decidable (_ ∧ _))
  | .socket (.route _) => inferInstanceAs (Decidable (_ ∧ _))
  | .socket (.connect ..) | .socket (.message ..) | .socket (.pong ..)
  | .socket (.report ..) | .socket (.keepalive ..) | .socket (.take ..)
  | .socket (.close ..) | .frame .. | .report .. => .isTrue trivial

/-- The time in a message fits its type. -/
def TimelyMessage (msg : Message) : Prop :=
  ∀ data, msg = .text data → data.Timely

theorem brings_timely {action : ConversationAction} (h : Timely action) :
    Brings TimelyMessage action := by
  cases action with
  | frame => trivial
  | report => trivial
  | socket action =>
      cases action with
      | snapshot clientId response now =>
          intro data hdata
          rw [← Message.text.inj hdata]
          exact h
      | route event =>
          intro data hdata
          rw [← Message.text.inj hdata]
          exact h
      | _ => trivial

/-- In every run in which the times fit, whatever frames anybody sends:
every message on its way to a client is read by it as what was sent. -/
theorem messages_read_back {J : SerdeJson} (hJ : J.Lawful)
    {c : Conversation}
    (hrun : Reached (step J) (fun _ action => Timely action) start c)
    {id : ClientId} {client : ClientState}
    (hc : c.registry.clients.lookup id = some client) {msg : ServerMessage}
    (hmsg : .text msg ∈ client.tx) :
    ServerMessage.fromStr J (msg.toString J) = some msg := by
  have hkept : ClientRegistry.KeptBy
      (ClientRegistry.Carries TimelyMessage) TimelyMessage := by
    refine ClientRegistry.keptBy_carries fun msg hsnapshot hchange => ?_
    rintro data rfl
    cases data with
    | snapshot data => exact absurd rfl (hsnapshot data)
    | priceChange data => exact absurd rfl (hchange data)
    | _ => trivial
  have hcarries : c.registry.Carries TimelyMessage :=
    hrun.invariant (I := fun c => c.registry.Carries TimelyMessage)
      (fun _ _ hv => nomatch hv)
      fun _ _ _ h htimely hstep =>
        kept_step hkept (brings_timely htimely) h hstep
  refine ServerMessage.fromStr_toString hJ ?_
  refine hcarries id (client.tx, client.subscriptions) ?_ _ hmsg msg rfl
  unfold ClientRegistry.view
  rw [hc]
  rfl

/-- The answer to a ping. -/
theorem messages_read_back_pong :
    ∃ (c : Conversation) (client : ClientState),
      Reached (step compactJson) (fun _ action => Timely action) start c
      ∧ c.registry.clients.lookup 1 = some client
      ∧ client.tx = [.text .pong]
      ∧ ServerMessage.fromStr compactJson
          (ServerMessage.toString compactJson .pong) = some .pong := by
  have hrun : ∃ c,
      Reached (step compactJson) (fun _ action => Timely action) start c
        ∧ (c.registry.clients.lookup 1).map (·.tx) = some [.text .pong] := by
    refine Runs.exists_reached
      [.socket (.connect 1 0),
        .frame 1 1 (.text "\x7b\"type\":\"ping\"\x7d")] ?_
    decide +kernel
  obtain ⟨c, hreached, htx⟩ := hrun
  obtain ⟨client, hc, hempty⟩ := Option.map_eq_some_iff.1 htx
  refine ⟨c, client, hreached, hc, hempty, ?_⟩
  refine messages_read_back compactJson_lawful hreached hc ?_
  rw [hempty]
  exact List.mem_singleton_self _

end Conversation

end Wup.Gateway
