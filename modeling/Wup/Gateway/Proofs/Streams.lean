/-
Gaps in a client's change stream.

A change that finds a client's channel full is lost to the client. From
then on the channel stays as it is until the client's writer takes a
message off it: whoever sends to a full channel is turned away
(`waiting_step`, one step; `stays_full`, any run). So the client gets no
later change of any asset before that, and no snapshot either, and the
first keepalive to tick ends the connection.

Nothing remembers the loss. Once the writer has taken a message there is
room again, and the next change goes out as if none was missing
(`change_after_gap`).
-/
import Wup.Gateway.Streams
import Wup.Gateway.Proofs.Lookup

namespace Wup.Gateway.ClientRegistry

open Runs

variable {registry : ClientRegistry} {clientId id : ClientId}

-- =========================================================== one operation

/-- A change of a client's state that leaves its channel. -/
theorem waiting_modifyClient {f : ClientState → ClientState}
    (hf : ∀ client, (f client).tx = client.tx) :
    (registry.modifyClient clientId f).waiting id
      = registry.waiting id := by
  unfold waiting
  rw [lookup_modifyClient]
  by_cases hid : id = clientId
  · rw [if_pos hid, hid, Option.map_map]
    exact congrFun (congrArg Option.map (funext hf)) _
  · rw [if_neg hid]

theorem waiting_subscribeTo (subject : String) :
    (subscribeTo clientId registry subject).waiting id
      = registry.waiting id := by
  rw [subscribeTo_eq]
  show (registry.modifyClient clientId _).waiting id = _
  exact waiting_modifyClient fun _ => rfl

theorem waiting_unsubscribeFrom (subject : String) :
    (unsubscribeFrom clientId registry subject).waiting id
      = registry.waiting id := by
  rw [unsubscribeFrom_eq]
  show (registry.modifyClient clientId _).waiting id = _
  exact waiting_modifyClient fun _ => rfl

theorem waiting_unregister (hid : id ≠ clientId) :
    (registry.unregister clientId).waiting id = registry.waiting id := by
  unfold waiting
  rw [lookup_unregister, if_neg hid]

theorem waiting_unregister_self :
    (registry.unregister id).waiting id = none := by
  unfold waiting
  rw [lookup_unregister, if_pos rfl]
  rfl

-- ========================================================== a full channel

/-- The client is registered and these messages, too many for another,
wait for it. -/
def Full (registry : ClientRegistry) (id : ClientId) (tx : List Message) :
    Prop :=
  registry.waiting id = some tx ∧ clientChannelBufferSize ≤ tx.length

variable {tx : List Message}

theorem Full.of_waiting {after : ClientRegistry} (h : registry.Full id tx)
    (hw : after.waiting id = registry.waiting id) : after.Full id tx :=
  ⟨hw.trans h.1, h.2⟩

theorem Full.noRoom (h : registry.Full id tx) :
    ∃ client, registry.clients.lookup id = some client
      ∧ ¬ client.HasRoom := by
  obtain ⟨client, hc, htx⟩ := Option.map_eq_some_iff.1 h.1
  refine ⟨client, hc, ?_⟩
  unfold ClientState.HasRoom
  rw [htx]
  exact Nat.not_lt.2 h.2

/-- A full channel takes no message. -/
theorem Full.trySendRaw (h : registry.Full id tx) (clientId : ClientId)
    (msg : Message) : (registry.trySendRaw clientId msg).1.Full id tx := by
  refine h.of_waiting ?_
  unfold ClientRegistry.trySendRaw waiting
  rw [lookup_modifyClient]
  by_cases hid : id = clientId
  · obtain ⟨client, hc, hfull⟩ := h.noRoom
    subst hid
    rw [if_pos rfl, hc]
    unfold ClientState.trySendRaw
    rw [Option.map_some, if_neg hfull]
  · rw [if_neg hid]

theorem Full.trySendRaw_self (h : registry.Full id tx) (msg : Message) :
    (registry.trySendRaw id msg).2 = false := by
  obtain ⟨client, hc, hfull⟩ := h.noRoom
  unfold ClientRegistry.trySendRaw ClientState.trySendRaw
  rw [hc, Option.map_some, if_neg hfull]
  rfl

theorem Full.send (h : registry.Full id tx) (clientId : ClientId)
    (msg : ServerMessage) : (registry.send clientId msg).1.Full id tx :=
  h.trySendRaw clientId (.text msg)

/-- A channel with room takes the message. -/
theorem send_of_room (msg : ServerMessage)
    (hw : registry.waiting id = some tx)
    (hroom : tx.length < clientChannelBufferSize) :
    (registry.send id msg).2 = .ok ()
      ∧ (registry.send id msg).1.waiting id = some (tx ++ [.text msg]) := by
  obtain ⟨client, hc, rfl⟩ := Option.map_eq_some_iff.1 hw
  have hsent : ∀ m, client.trySendRaw m
      = ({ client with tx := client.tx ++ [m] }, true) :=
    fun m => if_pos hroom
  constructor
  · unfold ClientRegistry.send ClientRegistry.trySendRaw
    rw [hc, Option.map_some, hsent]
    rfl
  · show ((registry.modifyClient id _).clients.lookup id).map _ = _
    rw [lookup_modifyClient, if_pos rfl, hc, Option.map_some, hsent]
    rfl

/-- A full one refuses it. -/
theorem Full.send_self (h : registry.Full id tx) (msg : ServerMessage) :
    (registry.send id msg).2 = .error .channelSend := by
  show (if (registry.trySendRaw id (.text msg)).2 = true then
    Except.ok () else _) = _
  rw [h.trySendRaw_self, if_neg Bool.false_ne_true]

theorem Full.handleChange (h : registry.Full id tx)
    (event : AggregatedPriceChangeEvent) :
    (handleChange registry event).Full id tx := by
  unfold Gateway.handleChange
  generalize registry.getMatchingSubscribers _ = clients
  induction clients generalizing registry with
  | nil => exact h
  | cons client clients ih => exact ih (h.trySendRaw client.id _)

private theorem Full.foldl {step : ClientRegistry → String → ClientRegistry}
    (hstep : ∀ registry s, (step registry s).waiting id
      = registry.waiting id)
    (h : registry.Full id tx) (subjects : List String) :
    (subjects.foldl step registry).Full id tx :=
  h.of_waiting (foldl_frame (fun registry => registry.waiting id)
    (fun registry s _ => hstep registry s) registry)

theorem Full.handleClientMessage (h : registry.Full id tx)
    (clientId : ClientId) (now : Int) (msg : ClientMessage) :
    (handleClientMessage registry clientId now msg).1.Full id tx := by
  unfold Gateway.handleClientMessage
  cases msg with
  | subscribe subjects =>
      simp only
      cases subjects.findSome? validatePattern with
      | some error => exact h
      | none =>
          unfold ClientRegistry.subscribe
          cases registry.clients.lookup clientId with
          | none => exact h
          | some client =>
              exact (Full.foldl (fun _ s => waiting_subscribeTo s) h
                subjects).send clientId _
  | unsubscribe subjects =>
      simp only
      unfold ClientRegistry.unsubscribe
      cases registry.clients.lookup clientId with
      | none => exact h
      | some client =>
          exact (Full.foldl (fun _ s => waiting_unsubscribeFrom s) h
            subjects).send clientId _
  | ping =>
      have hping : (registry.modifyClient clientId fun client =>
          client.updatePing now).Full id tx :=
        h.of_waiting (waiting_modifyClient fun _ => rfl)
      exact hping.send clientId _

-- ================================================================= the run

/-- A full channel stays as it is, unless its writer takes a message or
the client leaves. -/
theorem Full.step (h : registry.Full id tx) {action : SocketAction}
    (htake : ¬ Takes id action)
    (hleave : ¬ Unregisters id registry action) {after : ClientRegistry}
    (hstep : registry.socketStep action = some after) :
    after.Full id tx := by
  have hstays : after.waiting id ≠ none :=
    fun hnone => hleave ⟨after, hstep, hnone⟩
  unfold socketStep at hstep
  cases action with
  | connect clientId now =>
      obtain ⟨hnew, hafter⟩ := Option.ite_none_left_eq_some.1 hstep
      obtain rfl := Option.some.inj hafter
      have hid : id ≠ clientId := by
        rintro rfl
        obtain ⟨client, hc, -⟩ := Option.map_eq_some_iff.1 h.1
        exact hnew (by rw [Connected, hc]; rfl)
      refine h.of_waiting ?_
      unfold waiting
      rw [lookup_register, if_neg hid]
  | message clientId now msg =>
      obtain ⟨-, hafter⟩ := Option.ite_none_right_eq_some.1 hstep
      obtain rfl := Option.some.inj hafter
      exact h.handleClientMessage clientId now msg
  | pong clientId now =>
      obtain ⟨-, hafter⟩ := Option.ite_none_right_eq_some.1 hstep
      obtain rfl := Option.some.inj hafter
      have hping : (registry.modifyClient clientId fun client =>
          client.updatePing now).Full id tx :=
        h.of_waiting (waiting_modifyClient fun _ => rfl)
      exact hping.trySendRaw clientId .pong
  | report clientId error =>
      obtain ⟨-, hafter⟩ := Option.ite_none_right_eq_some.1 hstep
      obtain rfl := Option.some.inj hafter
      exact h.send clientId _
  | snapshot clientId response now =>
      obtain ⟨-, hafter⟩ := Option.ite_none_right_eq_some.1 hstep
      obtain rfl := Option.some.inj hafter
      exact h.send clientId _
  | route event =>
      obtain rfl := Option.some.inj hstep
      exact h.handleChange event
  | keepalive clientId =>
      obtain ⟨-, hafter⟩ := Option.ite_none_right_eq_some.1 hstep
      have hsent := h.trySendRaw clientId .ping
      simp only at hafter
      split at hafter
      · obtain rfl := Option.some.inj hafter
        exact hsent
      · obtain rfl := Option.some.inj hafter
        have hid : id ≠ clientId := by
          rintro rfl
          exact hstays waiting_unregister_self
        exact hsent.of_waiting (waiting_unregister hid)
  | take clientId =>
      have hid : id ≠ clientId := by
        rintro rfl
        exact htake rfl
      simp only at hstep
      split at hstep
      · obtain rfl := Option.some.inj hstep
        refine h.of_waiting ?_
        unfold waiting
        rw [lookup_modifyClient, if_neg hid]
      · cases hstep
  | close clientId =>
      obtain ⟨-, hafter⟩ := Option.ite_none_right_eq_some.1 hstep
      obtain rfl := Option.some.inj hafter
      have hid : id ≠ clientId := by
        rintro rfl
        exact hstays waiting_unregister_self
      exact h.of_waiting (waiting_unregister hid)

/-- A full channel stays as it is over any run in which its writer takes
nothing and the client does not leave. -/
theorem stays_full {later : ClientRegistry} (h : registry.Full id tx)
    (hrun : Reached socketStep
      (fun registry action =>
        ¬ Takes id action ∧ ¬ Unregisters id registry action)
      registry later) : later.Full id tx :=
  hrun.invariant (I := fun registry => registry.Full id tx) h
    fun _ _ _ hfull hallowed hstep =>
      hfull.step hallowed.1 hallowed.2 hstep

/-- No step puts a message into a full channel. -/
theorem Full.not_enqueues (h : registry.Full id tx)
    {action : SocketAction} {after : ClientRegistry}
    (hstep : registry.socketStep action = some after) (msg : Message) :
    ¬ Enqueues registry after id msg := by
  intro hmsg
  obtain ⟨before, hbefore, hafter⟩ := hmsg
  by_cases htake : Takes id action
  · -- the channel gets shorter
    subst htake
    unfold socketStep at hstep
    simp only [hbefore] at hstep
    split at hstep
    · obtain rfl := Option.some.inj hstep
      obtain ⟨client, hc, rfl⟩ := Option.map_eq_some_iff.1 hbefore
      unfold waiting at hafter
      rw [lookup_modifyClient, if_pos rfl, hc] at hafter
      have hlen := congrArg List.length (Option.some.inj hafter)
      simp only [List.length_tail, List.length_append,
        List.length_singleton] at hlen
      omega
    · cases hstep
  · have hstays : ¬ Unregisters id registry action := by
      intro hleave
      obtain ⟨after', hstep', hnone⟩ := hleave
      obtain rfl := Option.some.inj (hstep.symm.trans hstep')
      rw [hnone] at hafter
      cases hafter
    have hfull := (h.step htake hstays hstep).1
    rw [hafter, ← h.1, hbefore] at hfull
    have hlen := congrArg List.length (Option.some.inj hfull)
    simp at hlen

theorem DropsChange.full {event : AggregatedPriceChangeEvent}
    (h : registry.DropsChange event id) :
    ∃ tx, registry.Full id tx := by
  obtain ⟨client, hc, -, hroom⟩ := h
  refine ⟨client.tx, ?_, Nat.not_lt.1 hroom⟩
  unfold waiting
  rw [hc]
  rfl

/-- After the router has dropped a change for a client, and as long as the
client's writer takes no message off the channel and the client is not
unregistered: the channel stays as it was, no step puts a message into it,
be it a change or a snapshot, and a keepalive unregisters the client. -/
theorem gap_until_take {event : AggregatedPriceChangeEvent}
    (hdrop : registry.DropsChange event id) {later : ClientRegistry}
    (hrun : Reached socketStep
      (fun registry action =>
        ¬ Takes id action ∧ ¬ Unregisters id registry action)
      (handleChange registry event) later) :
    later.waiting id = registry.waiting id
      ∧ (∀ action after, later.socketStep action = some after →
          ∀ msg, ¬ Enqueues later after id msg)
      ∧ ∀ after, later.socketStep (.keepalive id) = some after →
          after.waiting id = none := by
  obtain ⟨tx, hfull⟩ := hdrop.full
  have hlater := stays_full (hfull.handleChange event) hrun
  refine ⟨hlater.1.trans hfull.1.symm,
    fun action after hstep => hlater.not_enqueues hstep,
    fun after hstep => ?_⟩
  unfold socketStep at hstep
  obtain ⟨-, hafter⟩ := Option.ite_none_right_eq_some.1 hstep
  simp only [hlater.trySendRaw_self, Bool.false_eq_true, if_false]
    at hafter
  obtain rfl := Option.some.inj hafter
  exact waiting_unregister_self

-- ============================================================== one client

/-- A client with a subscription to `m.t`. -/
private def slowClient (tx : List Message) : ClientState :=
  ⟨1, tx, HashSet.empty.insert "m.t", 0, 0⟩

/-- Nobody but this client, with these messages waiting. -/
private def slow (tx : List Message) : ClientRegistry where
  clients := AList.singleton 1 (slowClient tx)
  subscriptions := (∅ : HashMap String (HashSet ClientId)).file "m.t" 1
  exactSubscriptions := (∅ : HashMap String (HashSet ClientId)).file "m.t" 1
  wildcardPatterns := []

/-- An event of its asset. -/
private def news (timestampUs : Int) : AggregatedPriceChangeEvent :=
  ⟨"m", "t", [], timestampUs⟩

section Slow

variable (tx : List Message)

private theorem lookup_slow :
    (slow tx).clients.lookup 1 = some (slowClient tx) := by
  unfold slow
  rw [← AList.insert_empty, AList.lookup_insert]

private theorem waiting_slow : (slow tx).waiting 1 = some tx := by
  unfold waiting
  rw [lookup_slow]
  rfl

private theorem modifyClient_slow {f : ClientState → ClientState}
    {tx' : List Message} (hf : f (slowClient tx) = slowClient tx') :
    (slow tx).modifyClient 1 f = slow tx' := by
  unfold modifyClient
  simp only [lookup_slow, hf]
  unfold slow
  rw [AList.insert_singleton_eq]

private theorem trySendRaw_slow (msg : Message) :
    ((slow tx).trySendRaw 1 msg).1
      = if tx.length < clientChannelBufferSize then slow (tx ++ [msg])
        else slow tx := by
  have hroom : (slowClient tx).HasRoom
      ↔ tx.length < clientChannelBufferSize := Iff.rfl
  unfold ClientRegistry.trySendRaw
  by_cases h : tx.length < clientChannelBufferSize
  · rw [if_pos h, modifyClient_slow tx]
    unfold ClientState.trySendRaw
    rw [if_pos (hroom.2 h)]
    rfl
  · rw [if_neg h, modifyClient_slow tx]
    unfold ClientState.trySendRaw
    rw [if_neg (hroom.not.2 h)]

private theorem matching_slow :
    (slow tx).getMatchingSubscribers (buildSubject "m" "t")
      = [slowClient tx] := by
  have hids : ((slow tx).matchedClients (buildSubject "m" "t")).items
      = [1] := by
    show ((slow []).matchedClients (buildSubject "m" "t")).items = [1]
    decide +kernel
  unfold getMatchingSubscribers
  rw [hids, List.filterMap_cons, lookup_slow]
  rfl

private theorem handleChange_slow (timestampUs : Int) :
    handleChange (slow tx) (news timestampUs)
      = ((slow tx).trySendRaw 1
          (.text (.priceChange (.ofEvent (news timestampUs))))).1 := by
  unfold handleChange
  show List.foldl _ _ ((slow tx).getMatchingSubscribers
    (buildSubject "m" "t")) = _
  rw [matching_slow]
  rfl

private theorem take_slow (msg : Message) :
    (slow (msg :: tx)).socketStep (.take 1) = some (slow tx) := by
  have htake : (slow (msg :: tx)).modifyClient 1 (fun client =>
      { client with tx := client.tx.tail }) = slow tx :=
    modifyClient_slow (msg :: tx) rfl
  unfold socketStep waiting
  simp only [lookup_slow, Option.map_some, slowClient, htake]

private theorem ping_slow :
    (slow tx).socketStep (.message 1 0 .ping)
      = some ((slow tx).trySendRaw 1 (.text .pong)).1 := by
  have hping : (slow tx).modifyClient 1 (fun client =>
      client.updatePing 0) = slow tx := modifyClient_slow tx rfl
  unfold socketStep handleClientMessage
  simp only [Connected, lookup_slow, Option.isSome_some, if_true, hping]
  rfl

/-- The client's pings fill its channel. -/
private theorem reached_slow (n : Nat)
    (h : n < clientChannelBufferSize) :
    Reached socketStep (fun _ _ => True) .new
      (slow (.text (.subscribed ["m.t"]) :: List.replicate n
        (.text .pong))) := by
  induction n with
  | zero =>
      have hconnect : new.socketStep (.connect 1 0)
          = some (new.register (.new 1 0)) := rfl
      have hsubscribe : (new.register (.new 1 0)).socketStep
          (.message 1 0 (.subscribe ["m.t"]))
            = some (slow [.text (.subscribed ["m.t"])]) := by
        rfl
      exact .step (.step .start trivial hconnect) trivial hsubscribe
  | succ n ih =>
      have hping := ping_slow
        (.text (.subscribed ["m.t"]) :: List.replicate n (.text .pong))
      rw [trySendRaw_slow, if_pos (by simpa using h), List.cons_append,
        ← List.replicate_succ'] at hping
      exact .step (ih (Nat.lt_of_succ_lt h)) trivial hping

private theorem dropsChange_slow
    (h : clientChannelBufferSize ≤ tx.length) (timestampUs : Int) :
    (slow tx).DropsChange (news timestampUs) 1 := by
  refine ⟨_, lookup_slow tx, ?_, Nat.not_lt.2 h⟩
  show _ ∈ getMatchingSubscribers _ (buildSubject "m" "t")
  rw [matching_slow]
  exact List.mem_singleton_self _

end Slow

/-- Two changes meet a full channel. -/
theorem gap_until_take_two_changes :
    ∃ registry later : ClientRegistry, ∃ id : ClientId,
      ∃ first second : AggregatedPriceChangeEvent,
      registry.DropsChange first id
        ∧ (handleChange registry first).socketStep (.route second)
          = some later
        ∧ later.waiting id = registry.waiting id
        ∧ (∀ action after, later.socketStep action = some after →
          ∀ msg, ¬ Enqueues later after id msg)
        ∧ ∀ after, later.socketStep (.keepalive id) = some after →
          after.waiting id = none := by
  have hdrop := dropsChange_slow (List.replicate 1000 (.text .pong))
    (by rw [List.length_replicate]; rfl) 1
  generalize slow (List.replicate 1000 (.text .pong)) = registry at hdrop
  have hroute : (handleChange registry (news 1)).socketStep
      (.route (news 2))
        = some (handleChange (handleChange registry (news 1)) (news 2)) :=
    rfl
  refine ⟨registry, _, 1, news 1, news 2, hdrop, hroute, ?_⟩
  obtain ⟨tx, hfull⟩ := hdrop.full
  refine gap_until_take hdrop (.step .start ⟨?_, ?_⟩ hroute)
  · intro htake
    cases htake
  · intro hleave
    obtain ⟨after, hstep, hnone⟩ := hleave
    obtain rfl := Option.some.inj hstep
    rw [((hfull.handleChange (news 1)).handleChange (news 2)).1] at hnone
    cases hnone

/-- A change is dropped for a client whose channel is full, the writer takes
one message, and the next change of the same asset is enqueued: no
snapshot in between, and the client is still registered. -/
theorem change_after_gap :
    ∃ registry later : ClientRegistry, ∃ id : ClientId,
      ∃ first second : AggregatedPriceChangeEvent,
      first.marketId = second.marketId ∧ first.assetId = second.assetId
        ∧ Reached socketStep (fun _ _ => True) .new registry
        ∧ registry.DropsChange first id
        ∧ Reached socketStep
            (fun registry action =>
              ¬ SendsSnapshot first.marketId first.assetId id registry
                action
              ∧ ¬ Unregisters id registry action)
            (handleChange registry first) later
        ∧ Enqueues later (handleChange later second) id
            (.text (.priceChange (.ofEvent second))) := by
  have hreached := reached_slow 999 (by decide)
  generalize hw : List.replicate 999 (Message.text .pong) = waits
    at hreached
  have hlen : waits.length = 999 := by rw [← hw, List.length_replicate]
  generalize htx : Message.text (.subscribed ["m.t"]) :: waits = tx
    at hreached
  have hfull : (slow tx).Full 1 tx := by
    refine ⟨waiting_slow tx, ?_⟩
    rw [← htx, List.length_cons, hlen]
    rfl
  have hkept : handleChange (slow tx) (news 1) = slow tx := by
    rw [handleChange_slow, trySendRaw_slow, if_neg (Nat.not_lt.2 hfull.2)]
  have htake : (slow tx).socketStep (.take 1) = some (slow waits) := by
    rw [← htx]
    exact take_slow waits _
  refine ⟨slow tx, slow waits, 1, news 1, news 2, rfl, rfl, hreached,
    dropsChange_slow tx hfull.2 1, ?_, waits, waiting_slow waits, ?_⟩
  · rw [hkept]
    refine .step .start ⟨fun hsnap => ?_, fun hleave => ?_⟩ htake
    · obtain ⟨after, data, hstep, hsent, -⟩ := hsnap
      exact hfull.not_enqueues hstep _ hsent
    · obtain ⟨after, hstep, hnone⟩ := hleave
      obtain rfl := Option.some.inj (htake.symm.trans hstep)
      rw [waiting_slow] at hnone
      cases hnone
  · have hfree : waits.length < clientChannelBufferSize := by
      rw [hlen]
      decide
    rw [handleChange_slow, trySendRaw_slow, if_pos hfree, waiting_slow]

end Wup.Gateway.ClientRegistry
