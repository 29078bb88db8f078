/-
What a client is told of its subscriptions is what its events are routed
by.

A client hears of its subscriptions only in the messages it is sent; the
registry files them on its own. Between the two are a bounded channel,
frames that cannot be read or are refused, and everything else that is
sent. `view` is what an operation can do to both: messages are appended,
and only a subscription's confirmation goes with a change of what is
subscribed to. So the two stay together over any run in which the
confirmations are not dropped (`told_what_is_routed`).
-/
import Wup.Gateway.Proofs.Channels
import Wup.Gateway.Proofs.Streams
import Wup.Wire.Clients
import Wup.Wire.Proofs.Schema

namespace Wup.Gateway

namespace ClientRegistry

variable {registry : ClientRegistry} {clientId id : ClientId}

-- ================================================================ the view

/-- What waits for a client, and what it is subscribed to. -/
def view (registry : ClientRegistry) (id : ClientId) :
    Option (List Message × HashSet String) :=
  (registry.clients.lookup id).map fun client =>
    (client.tx, client.subscriptions)

theorem view_modifyClient {f : ClientState → ClientState}
    {g : List Message × HashSet String → List Message × HashSet String}
    (hf : ∀ c, ((f c).tx, (f c).subscriptions) = g (c.tx, c.subscriptions)) :
    (registry.modifyClient clientId f).view id
      = if id = clientId then (registry.view id).map g
        else registry.view id := by
  unfold view
  rw [lookup_modifyClient]
  by_cases hid : id = clientId
  · rw [if_pos hid, if_pos hid, hid, Option.map_map, Option.map_map]
    exact congrFun (congrArg Option.map (funext hf)) _
  · rw [if_neg hid, if_neg hid]

/-- A change of a client's state that is not seen. -/
theorem view_modifyClient_frame {f : ClientState → ClientState}
    (hf : ∀ c, ((f c).tx, (f c).subscriptions) = (c.tx, c.subscriptions)) :
    (registry.modifyClient clientId f).view id = registry.view id := by
  rw [view_modifyClient (g := fun v => v) hf]
  simp

/-- A message that is sent waits, if there is room. -/
theorem view_trySendRaw (msg : Message) :
    (registry.trySendRaw clientId msg).1.view id
      = if id = clientId then (registry.view id).map fun v =>
          (if v.1.length < clientChannelBufferSize then v.1 ++ [msg]
            else v.1, v.2)
        else registry.view id := by
  refine view_modifyClient fun c => ?_
  unfold ClientState.trySendRaw ClientState.HasRoom
  by_cases hroom : c.tx.length < clientChannelBufferSize
  · simp [hroom]
  · simp [hroom]

theorem view_subscribeTo (subject : String) :
    (subscribeTo clientId registry subject).view id
      = if id = clientId then
          (registry.view id).map fun v => (v.1, v.2.insert subject)
        else registry.view id := by
  rw [subscribeTo_eq]
  exact view_modifyClient fun c => rfl

theorem view_unsubscribeFrom (subject : String) :
    (unsubscribeFrom clientId registry subject).view id
      = if id = clientId then
          (registry.view id).map fun v => (v.1, v.2.remove subject)
        else registry.view id := by
  rw [unsubscribeFrom_eq]
  exact view_modifyClient fun c => rfl

/-- One subject after another. -/
theorem view_foldl {f : ClientRegistry → String → ClientRegistry}
    {g : HashSet String → String → HashSet String}
    (hstep : ∀ registry subject, (f registry subject).view id
      = if id = clientId then
          (registry.view id).map fun v => (v.1, g v.2 subject)
        else registry.view id) (subjects : List String) :
    (subjects.foldl f registry).view id
      = if id = clientId then
          (registry.view id).map fun v => (v.1, subjects.foldl g v.2)
        else registry.view id := by
  induction subjects generalizing registry with
  | nil => simp
  | cons subject subjects ih =>
      rw [List.foldl_cons, ih, hstep]
      by_cases hid : id = clientId
      · simp [hid, Function.comp_def]
      · simp [hid]

theorem view_register (now : Int) :
    (registry.register (.new clientId now)).view id
      = if id = clientId then some ([], .empty) else registry.view id := by
  unfold view
  rw [lookup_register]
  split <;> rfl

theorem view_unregister :
    (registry.unregister clientId).view id
      = if id = clientId then none else registry.view id := by
  unfold view
  rw [lookup_unregister]
  split <;> rfl

-- ================================================================= in sync

/-- What a client was told, with what waits for it, is what it is
subscribed to. -/
def InSync (registry : ClientRegistry) (id : ClientId)
    (told : HashSet String) : Prop :=
  ∀ v ∈ registry.view id, ∀ s, s ∈ v.1.foldl heed told ↔ s ∈ v.2

variable {told : HashSet String}

theorem InSync.congr {after : ClientRegistry} (h : registry.InSync id told)
    (hview : after.view id = registry.view id) : after.InSync id told := by
  unfold InSync
  rw [hview]
  exact h

/-- Any message but a confirmation. -/
theorem InSync.trySendRaw (h : registry.InSync id told)
    (clientId : ClientId) {msg : Message}
    (hmsg : ∀ told, heed told msg = told) :
    (registry.trySendRaw clientId msg).1.InSync id told := by
  unfold InSync
  rw [view_trySendRaw]
  split
  · intro v' hv'
    obtain ⟨v, hv, rfl⟩ := Option.map_eq_some_iff.1 hv'
    intro s
    show s ∈ List.foldl heed told (if _ then _ else _) ↔ s ∈ v.2
    rw [← h v hv s]
    split
    · rw [List.foldl_append, List.foldl_cons, List.foldl_nil, hmsg]
    · exact Iff.rfl
  · exact h

theorem InSync.handleChange (h : registry.InSync id told)
    (event : AggregatedPriceChangeEvent) :
    (handleChange registry event).InSync id told := by
  unfold Gateway.handleChange
  generalize registry.getMatchingSubscribers _ = clients
  induction clients generalizing registry with
  | nil => exact h
  | cons client clients ih =>
      exact ih (h.trySendRaw client.id fun _ => rfl)

theorem InSync.unregister (h : registry.InSync id told)
    (clientId : ClientId) :
    (registry.unregister clientId).InSync id told := by
  unfold InSync
  rw [view_unregister]
  split
  · exact nofun
  · exact h

/-- A confirmation that there is room for, with the change it confirms. -/
theorem InSync.confirmed {changed : ClientRegistry}
    (h : registry.InSync id told) {g : HashSet String → HashSet String}
    (hchanged : changed.view id = if id = clientId then
        (registry.view id).map fun v => (v.1, g v.2)
      else registry.view id)
    {msg : Message}
    (hmsg : ∀ told told', (∀ s, s ∈ told ↔ s ∈ told') →
      ∀ s, s ∈ heed told msg ↔ s ∈ g told')
    (hroom : id = clientId → ∀ client ∈ registry.clients.lookup id,
      client.HasRoom) :
    (changed.trySendRaw clientId msg).1.InSync id told := by
  unfold InSync
  rw [view_trySendRaw, hchanged]
  by_cases hid : id = clientId
  · rw [if_pos hid, if_pos hid, Option.map_map]
    intro v' hv'
    obtain ⟨v, hv, rfl⟩ := Option.map_eq_some_iff.1 hv'
    obtain ⟨client, hc, hview⟩ := Option.map_eq_some_iff.1 hv
    have hlen : v.1.length < clientChannelBufferSize := by
      rw [← hview]
      exact hroom hid client hc
    simp only [Function.comp_apply, if_pos hlen, List.foldl_append,
      List.foldl_cons, List.foldl_nil]
    exact hmsg _ _ (h v hv)
  · rw [if_neg hid, if_neg hid]
    exact h

theorem mem_foldl_remove {subjects : List String} {s : String}
    {told : HashSet String} :
    s ∈ subjects.foldl HashSet.remove told ↔ s ∉ subjects ∧ s ∈ told := by
  induction subjects generalizing told with
  | nil => simp
  | cons subject subjects ih =>
      rw [List.foldl_cons, ih, HashSet.mem_remove, List.mem_cons]
      tauto

theorem InSync.handleClientMessage (h : registry.InSync id told)
    (clientId : ClientId) (now : Int) (msg : ClientMessage)
    (hroom : msg.isConfirmed = true → id = clientId →
      ∀ client ∈ registry.clients.lookup id, client.HasRoom) :
    (handleClientMessage registry clientId now msg).1.InSync id told := by
  cases msg with
  | subscribe subjects =>
      unfold ClientMessage.isConfirmed at hroom
      unfold Gateway.handleClientMessage
      simp only at hroom ⊢
      cases hvalid : subjects.findSome? validatePattern with
      | some error => exact h
      | none =>
          rw [hvalid] at hroom
          unfold ClientRegistry.subscribe
          cases registry.clients.lookup clientId with
          | none => exact h
          | some client =>
              refine h.confirmed
                (g := fun set => subjects.foldl HashSet.insert set)
                (view_foldl (f := subscribeTo clientId)
                  (fun _ s => view_subscribeTo s) subjects) ?_ (hroom rfl)
              intro told told' hsame s
              show s ∈ told.extend subjects ↔ s ∈ told'.extend subjects
              rw [HashSet.mem_extend, HashSet.mem_extend, hsame]
  | unsubscribe subjects =>
      unfold Gateway.handleClientMessage
      simp only
      unfold ClientRegistry.unsubscribe
      cases registry.clients.lookup clientId with
      | none => exact h
      | some client =>
          refine h.confirmed
            (g := fun set => subjects.foldl HashSet.remove set)
            (view_foldl (f := unsubscribeFrom clientId)
              (fun _ s => view_unsubscribeFrom s) subjects) ?_ (hroom rfl)
          intro told told' hsame s
          show s ∈ subjects.foldl HashSet.remove told ↔ _
          rw [mem_foldl_remove, mem_foldl_remove, hsame]
  | ping =>
      have hping : (registry.modifyClient clientId fun client =>
          client.updatePing now).InSync id told :=
        h.congr (view_modifyClient_frame fun _ => rfl)
      exact hping.trySendRaw clientId fun _ => rfl

-- =================================================================== steps

/-- What an operation brings to the channels besides notices: a snapshot,
or a published change. -/
def Brings (P : Message → Prop) : SocketAction → Prop
  | .snapshot _ response now =>
      P (.text (.snapshot (response.toOrderbookData now)))
  | .route event => P (.text (.priceChange (.ofEvent event)))
  | _ => True

/-- A property of the registry that the elementary operations keep, with
messages of a kind. -/
structure KeptBy (I : ClientRegistry → Prop) (P : Message → Prop) :
    Prop where
  notice : ∀ msg, (∀ data, msg ≠ .text (.snapshot data)) →
    (∀ data, msg ≠ .text (.priceChange data)) → P msg
  register : ∀ registry clientId now,
    registry.clients.lookup clientId = none → I registry →
      I (registry.register (.new clientId now))
  unregister : ∀ registry clientId, I registry →
    I (registry.unregister clientId)
  subscribe : ∀ registry clientId subjects after,
    registry.subscribe clientId subjects = .ok after → I registry → I after
  unsubscribe : ∀ registry clientId subjects after,
    registry.unsubscribe clientId subjects = .ok after → I registry →
      I after
  updatePing : ∀ registry clientId now, I registry →
    I (registry.modifyClient clientId fun client => client.updatePing now)
  trySendRaw : ∀ registry clientId msg, P msg → I registry →
    I (registry.trySendRaw clientId msg).1
  take : ∀ registry clientId, I registry →
    I (registry.modifyClient clientId fun client =>
      { client with tx := client.tx.tail })

section Kept

variable {I : ClientRegistry → Prop} {P : Message → Prop}

theorem KeptBy.handleChange (h : KeptBy I P)
    {event : AggregatedPriceChangeEvent}
    (hevent : P (.text (.priceChange (.ofEvent event))))
    (hI : I registry) : I (handleChange registry event) := by
  unfold Gateway.handleChange
  generalize registry.getMatchingSubscribers _ = clients
  induction clients generalizing registry with
  | nil => exact hI
  | cons client clients ih => exact ih (h.trySendRaw _ _ _ hevent hI)

theorem KeptBy.handleClientMessage (h : KeptBy I P) (hI : I registry)
    (clientId : ClientId) (now : Int) (msg : ClientMessage) :
    I (handleClientMessage registry clientId now msg).1 := by
  cases msg with
  | subscribe subjects =>
      unfold Gateway.handleClientMessage
      simp only
      cases subjects.findSome? validatePattern with
      | some error => exact hI
      | none =>
          simp only
          cases hsub : registry.subscribe clientId subjects with
          | error e => exact hI
          | ok after =>
              exact h.trySendRaw _ _ _ (h.notice _ nofun nofun)
                (h.subscribe _ _ _ _ hsub hI)
  | unsubscribe subjects =>
      unfold Gateway.handleClientMessage
      simp only
      cases hsub : registry.unsubscribe clientId subjects with
      | error e => exact hI
      | ok after =>
          exact h.trySendRaw _ _ _ (h.notice _ nofun nofun)
            (h.unsubscribe _ _ _ _ hsub hI)
  | ping =>
      exact h.trySendRaw _ _ _ (h.notice _ nofun nofun)
        (h.updatePing _ _ _ hI)

/-- It is kept by every step of the tasks. -/
theorem KeptBy.socketStep (h : KeptBy I P) {action : SocketAction}
    (hbrings : Brings P action) (hI : I registry) {after : ClientRegistry}
    (hstep : registry.socketStep action = some after) : I after := by
  unfold ClientRegistry.socketStep at hstep
  cases action with
  | connect clientId now =>
      obtain ⟨hnew, hafter⟩ := Option.ite_none_left_eq_some.1 hstep
      rw [← Option.some.inj hafter]
      exact h.register _ _ now (Option.not_isSome_iff_eq_none.1 hnew) hI
  | message clientId now msg =>
      obtain ⟨-, hafter⟩ := Option.ite_none_right_eq_some.1 hstep
      rw [← Option.some.inj hafter]
      exact h.handleClientMessage hI clientId now msg
  | pong clientId now =>
      obtain ⟨-, hafter⟩ := Option.ite_none_right_eq_some.1 hstep
      rw [← Option.some.inj hafter]
      exact h.trySendRaw _ _ _ (h.notice _ nofun nofun)
        (h.updatePing _ _ _ hI)
  | report clientId error =>
      obtain ⟨-, hafter⟩ := Option.ite_none_right_eq_some.1 hstep
      rw [← Option.some.inj hafter]
      exact h.trySendRaw _ _ _ (h.notice _ nofun nofun) hI
  | snapshot clientId response now =>
      obtain ⟨-, hafter⟩ := Option.ite_none_right_eq_some.1 hstep
      rw [← Option.some.inj hafter]
      exact h.trySendRaw _ _ _ hbrings hI
  | route event =>
      rw [← Option.some.inj hstep]
      exact h.handleChange hbrings hI
  | keepalive clientId =>
      obtain ⟨-, hafter⟩ := Option.ite_none_right_eq_some.1 hstep
      have hsent := h.trySendRaw _ clientId .ping (h.notice _ nofun nofun) hI
      simp only at hafter
      split at hafter
      · rw [← Option.some.inj hafter]
        exact hsent
      · rw [← Option.some.inj hafter]
        exact h.unregister _ _ hsent
  | take clientId =>
      simp only at hstep
      split at hstep
      · rw [← Option.some.inj hstep]
        exact h.take _ _ hI
      · cases hstep
  | close clientId =>
      obtain ⟨-, hafter⟩ := Option.ite_none_right_eq_some.1 hstep
      rw [← Option.some.inj hafter]
      exact h.unregister _ _ hI

end Kept

/-- The indexes agree after every operation. -/
theorem keptBy_indexed : KeptBy Indexed fun _ => True where
  notice _ _ _ := trivial
  register _ _ now hfresh h := h.register now hfresh
  unregister _ clientId h := h.unregister clientId
  subscribe _ _ _ _ hafter h := h.subscribe hafter
  unsubscribe _ _ _ _ hafter h := h.unsubscribe hafter
  updatePing _ clientId _ h :=
    h.modifyClient clientId (fun _ => rfl) fun _ => rfl
  trySendRaw _ clientId msg _ h := by
    refine h.modifyClient clientId (fun c => ?_) fun c => ?_
    · unfold ClientState.trySendRaw
      split <;> rfl
    · unfold ClientState.trySendRaw
      split <;> rfl
  take _ clientId h := h.modifyClient clientId (fun _ => rfl) fun _ => rfl

end ClientRegistry

-- =========================================================== conversations

namespace Conversation

open Runs (Reached)

variable {J : SerdeJson} {id : ClientId} {c : Conversation}

/-- A client has heard what it is subscribed to. -/
def InSync (id : ClientId) (c : Conversation) : Prop :=
  c.registry.InSync id (c.told id)

/-- A frame with data, of either kind. -/
theorem InSync.handleText (h : InSync id c) (clientId : ClientId) (now : Int)
    (data : String)
    (hconfirms : Confirms J id c (.frame clientId now (.text data))) :
    (handleFrame J c.registry clientId now (.text data)).InSync id
      (c.told id) := by
  unfold Gateway.handleFrame
  simp only
  cases hmsg : ClientMessage.fromStr J data with
  | none => exact h
  | some msg =>
      refine ClientRegistry.InSync.handleClientMessage h clientId now msg ?_
      rintro hconfirmed rfl
      exact hconfirms (by simp [handled, hmsg, hconfirmed])

theorem InSync.handleFrame (h : InSync id c) (clientId : ClientId)
    (now : Int) (frame : Frame)
    (hconfirms : Confirms J id c (.frame clientId now frame)) :
    (handleFrame J c.registry clientId now frame).InSync id (c.told id) := by
  have hping : (c.registry.modifyClient clientId fun client =>
      client.updatePing now).InSync id (c.told id) :=
    ClientRegistry.InSync.congr h
      (ClientRegistry.view_modifyClient_frame fun _ => rfl)
  cases frame with
  | text data => exact h.handleText clientId now data hconfirms
  | binary data => exact h.handleText clientId now data hconfirms
  | ping => exact hping.trySendRaw clientId fun _ => rfl
  | pong => exact hping
  | close => exact h

theorem follow_connect (clientId : ClientId) (now : Int) :
    c.follow (.connect clientId now) id
      = if id = clientId then .empty else c.told id :=
  Function.update_apply ..

theorem follow_take {clientId : ClientId} {msg : Message}
    {tx : List Message}
    (h : c.registry.waiting clientId = some (msg :: tx)) :
    c.follow (.take clientId) id
      = if id = clientId then heed (c.told clientId) msg
        else c.told id := by
  unfold follow
  simp only [h]
  exact Function.update_apply ..

/-- A step of the gateway's tasks, with what the clients learn by it. -/
theorem InSync.socketStep (h : InSync id c) {action : SocketAction}
    (hconfirms : Confirms J id c (.socket action)) {after : ClientRegistry}
    (hstep : c.registry.socketStep action = some after) :
    after.InSync id (c.follow action id) := by
  have hsync : c.registry.InSync id (c.told id) := h
  unfold ClientRegistry.socketStep at hstep
  cases action with
  | connect clientId now =>
      obtain ⟨-, hafter⟩ := Option.ite_none_left_eq_some.1 hstep
      rw [← Option.some.inj hafter]
      unfold ClientRegistry.InSync
      rw [ClientRegistry.view_register, follow_connect]
      split
      · intro v hv s
        rw [← Option.some.inj hv]
        exact Iff.rfl
      · exact h
  | message clientId now msg =>
      obtain ⟨-, hafter⟩ := Option.ite_none_right_eq_some.1 hstep
      rw [← Option.some.inj hafter]
      refine hsync.handleClientMessage clientId now msg ?_
      rintro hconfirmed rfl
      exact hconfirms (by simp [handled, hconfirmed])
  | pong clientId now =>
      obtain ⟨-, hafter⟩ := Option.ite_none_right_eq_some.1 hstep
      rw [← Option.some.inj hafter]
      have hping : (c.registry.modifyClient clientId fun client =>
          client.updatePing now).InSync id (c.told id) :=
        hsync.congr (ClientRegistry.view_modifyClient_frame fun _ => rfl)
      exact hping.trySendRaw clientId fun _ => rfl
  | report clientId error =>
      obtain ⟨-, hafter⟩ := Option.ite_none_right_eq_some.1 hstep
      rw [← Option.some.inj hafter]
      exact hsync.trySendRaw clientId fun _ => rfl
  | snapshot clientId response now =>
      obtain ⟨-, hafter⟩ := Option.ite_none_right_eq_some.1 hstep
      rw [← Option.some.inj hafter]
      exact hsync.trySendRaw clientId fun _ => rfl
  | route event =>
      rw [← Option.some.inj hstep]
      exact hsync.handleChange event
  | keepalive clientId =>
      obtain ⟨-, hafter⟩ := Option.ite_none_right_eq_some.1 hstep
      have hsent :
          (c.registry.trySendRaw clientId .ping).1.InSync id (c.told id) :=
        hsync.trySendRaw clientId fun _ => rfl
      simp only at hafter
      split at hafter
      · rw [← Option.some.inj hafter]
        exact hsent
      · rw [← Option.some.inj hafter]
        exact hsent.unregister clientId
  | take clientId =>
      simp only at hstep
      split at hstep
      · next msg tx hwaiting =>
          rw [← Option.some.inj hstep]
          unfold ClientRegistry.InSync
          rw [follow_take hwaiting, ClientRegistry.view_modifyClient
            (g := fun v => (v.1.tail, v.2)) fun _ => rfl]
          split
          · next hid =>
              -- the client hears the message that is no longer waiting
              subst hid
              intro v' hv' s
              obtain ⟨v, hv, rfl⟩ := Option.map_eq_some_iff.1 hv'
              obtain ⟨client, hc, rfl⟩ := Option.map_eq_some_iff.1 hv
              have hheard := hsync _ hv s
              rw [ClientRegistry.waiting, hc] at hwaiting
              simp only [Option.some.inj hwaiting] at hheard ⊢
              exact hheard
          · exact h
      · cases hstep
  | close clientId =>
      obtain ⟨-, hafter⟩ := Option.ite_none_right_eq_some.1 hstep
      rw [← Option.some.inj hafter]
      exact hsync.unregister clientId

/-- A step of a conversation. -/
theorem InSync.step (h : InSync id c) {action : ConversationAction}
    (hconfirms : Confirms J id c action) {after : Conversation}
    (hstep : c.step J action = some after) : InSync id after := by
  cases action with
  | frame clientId now frame =>
      obtain ⟨-, hafter⟩ := Option.ite_none_right_eq_some.1 hstep
      rw [← Option.some.inj hafter]
      exact h.handleFrame clientId now frame hconfirms
  | report clientId text =>
      obtain ⟨-, hafter⟩ := Option.ite_none_right_eq_some.1 hstep
      rw [← Option.some.inj hafter]
      exact ClientRegistry.InSync.trySendRaw h clientId fun _ => rfl
  | socket action =>
      obtain ⟨registry, hafter, rfl⟩ := Option.map_eq_some_iff.1 hstep
      exact h.socketStep hconfirms hafter

/-- What a step brings to the channels. -/
def Brings (P : Message → Prop) : ConversationAction → Prop
  | .socket action => ClientRegistry.Brings P action
  | _ => True

theorem kept_step {I : ClientRegistry → Prop} {P : Message → Prop}
    (h : ClientRegistry.KeptBy I P) {action : ConversationAction}
    (hbrings : Brings P action) (hI : I c.registry) {after : Conversation}
    (hstep : c.step J action = some after) : I after.registry := by
  cases action with
  | frame clientId now frame =>
      obtain ⟨-, hafter⟩ := Option.ite_none_right_eq_some.1 hstep
      rw [← Option.some.inj hafter]
      have htext : ∀ data,
          I (handleFrame J c.registry clientId now (.text data)) := by
        intro data
        unfold handleFrame
        simp only
        cases ClientMessage.fromStr J data with
        | none => exact hI
        | some msg => exact h.handleClientMessage hI clientId now msg
      cases frame with
      | text data => exact htext data
      | binary data => exact htext data
      | ping =>
          exact h.trySendRaw _ _ _ (h.notice _ nofun nofun)
            (h.updatePing _ _ _ hI)
      | pong => exact h.updatePing _ _ _ hI
      | close => exact hI
  | report clientId text =>
      obtain ⟨-, hafter⟩ := Option.ite_none_right_eq_some.1 hstep
      rw [← Option.some.inj hafter]
      exact h.trySendRaw _ _ _ (h.notice _ nofun nofun) hI
  | socket action =>
      obtain ⟨registry, hafter, rfl⟩ := Option.map_eq_some_iff.1 hstep
      exact h.socketStep hbrings hI hafter

theorem brings_true (action : ConversationAction) :
    Brings (fun _ => True) action := by
  cases action with
  | socket action => cases action <;> trivial
  | frame => trivial
  | report => trivial

/-- In every state of a run in which no confirmation for a client was
dropped, whatever frames anybody sent: what the client was told, with what
still waits for it, is what it is subscribed to; so an event goes to it
just when a subject it was told of matches. -/
theorem told_what_is_routed
    (hrun : Reached (step J) (Confirms J id) start c)
    {client : ClientState}
    (hc : c.registry.clients.lookup id = some client) :
    let told := client.tx.foldl heed (c.told id)
    (∀ s, s ∈ told ↔ s ∈ client.subscriptions)
      ∧ ∀ marketId assetId,
        client ∈ c.registry.getMatchingSubscribers
            (buildSubject marketId assetId)
          ↔ ∃ p ∈ told, matchesSubject p
              (splitDots (buildSubject marketId assetId)) = true := by
  intro told
  have hindexed : c.registry.Indexed :=
    hrun.invariant (I := fun c => c.registry.Indexed)
      ClientRegistry.indexed_new fun _ action _ h _ hstep =>
        kept_step ClientRegistry.keptBy_indexed (brings_true action) h hstep
  have hsync : InSync id c :=
    hrun.invariant (I := InSync id) (fun v hv => nomatch hv)
      fun _ _ _ h hconfirms hstep => h.step hconfirms hstep
  have htold : ∀ s, s ∈ told ↔ s ∈ client.subscriptions := by
    refine hsync (client.tx, client.subscriptions) ?_
    unfold ClientRegistry.view
    rw [hc]
    rfl
  refine ⟨htold, fun marketId assetId => ?_⟩
  have hreg : c.registry.Registered client := by
    unfold ClientRegistry.Registered
    rw [hindexed.ids id client hc, hc]
  rw [ClientRegistry.mem_getMatchingSubscribers hindexed,
    and_iff_right hreg]
  exact exists_congr fun p => and_congr_left fun _ => (htold p).symm

/-- A client that has heard of its subscription gets what it asked for. -/
theorem told_what_is_routed_one_subject :
    ∃ (c : Conversation) (client : ClientState),
      Reached (step compactJson) (Confirms compactJson 1) start c
      ∧ c.registry.clients.lookup 1 = some client
      ∧ client
        ∈ c.registry.getMatchingSubscribers (buildSubject "m" "t") := by
  have hrun : ∃ c,
      Reached (step compactJson) (Confirms compactJson 1) start c
      ∧ (c.registry.clients.lookup 1).map (·.tx) = some []
      ∧ "m.t" ∈ c.told 1 := by
    refine Runs.exists_reached
      [.socket (.connect 1 0),
        .frame 1 1 (.text ("\x7b\"type\":\"subscribe\","
          ++ "\"subjects\":[\"m.t\"]\x7d")),
        .socket (.take 1)] ?_
    decide +kernel
  obtain ⟨c, hreached, htx, htold⟩ := hrun
  obtain ⟨client, hc, hempty⟩ := Option.map_eq_some_iff.1 htx
  obtain ⟨-, hrouted⟩ := told_what_is_routed hreached hc
  refine ⟨c, client, hreached, hc, (hrouted "m" "t").2 ⟨"m.t", ?_, ?_⟩⟩
  · rw [hempty]
    exact htold
  · decide +kernel

end Conversation

end Wup.Gateway
