/-
Both subscriber lookups against their plain definition: the registered
clients that hold a matching pattern, each once.

The invariant of the indexes holds in every reachable registry; a lookup
collects distinct ids and reads each one's state, and the id sets it
collects are, by the invariant, those of the plain definition.
-/
import Wup.Gateway.Proofs.Registry

namespace Wup.Gateway

namespace ClientRegistry

/-- The states the registry operations lead to. -/
inductive Reachable : ClientRegistry → Prop
  | new : Reachable new
  | register {registry : ClientRegistry} {id : ClientId} (now : Int) :
      Reachable registry → registry.clients.lookup id = none →
      Reachable (registry.register (.new id now))
  | subscribe {registry after : ClientRegistry} {id : ClientId}
      {subjects : List String} :
      Reachable registry → registry.subscribe id subjects = .ok after →
      Reachable after
  | unsubscribe {registry after : ClientRegistry} {id : ClientId}
      {subjects : List String} :
      Reachable registry → registry.unsubscribe id subjects = .ok after →
      Reachable after
  | unregister {registry : ClientRegistry} (id : ClientId) :
      Reachable registry → Reachable (registry.unregister id)

/-- The client is registered, in this state. -/
def Registered (registry : ClientRegistry) (client : ClientState) : Prop :=
  registry.clients.lookup client.id = some client

-- =========================================================== the invariant

section Steps

variable {registry after : ClientRegistry} {clientId : ClientId}
  {subjects : List String}

theorem Indexed.subscribe (h : registry.Indexed)
    (hafter : registry.subscribe clientId subjects = .ok after) :
    after.Indexed := by
  unfold ClientRegistry.subscribe at hafter
  cases hc : registry.clients.lookup clientId with
  | none =>
      rw [hc] at hafter
      cases hafter
  | some client =>
      rw [hc] at hafter
      obtain rfl := Except.ok.inj hafter
      -- the loop keeps the invariant, and the client registered
      have hreg : (registry.clients.lookup clientId).isSome = true := by
        rw [hc]
        rfl
      clear hafter hc
      induction subjects generalizing registry with
      | nil => exact h
      | cons subject subjects ih =>
          exact ih (h.subscribeTo hreg) (registered_subscribeTo hreg)

theorem Indexed.unsubscribe (h : registry.Indexed)
    (hafter : registry.unsubscribe clientId subjects = .ok after) :
    after.Indexed := by
  unfold ClientRegistry.unsubscribe at hafter
  cases hc : registry.clients.lookup clientId with
  | none =>
      rw [hc] at hafter
      cases hafter
  | some client =>
      rw [hc] at hafter
      obtain rfl := Except.ok.inj hafter
      clear hafter hc
      induction subjects generalizing registry with
      | nil => exact h
      | cons subject subjects ih => exact ih h.unsubscribeFrom

/-- The indexes agree with the subscriptions in every reachable state. -/
theorem Reachable.indexed (h : registry.Reachable) : registry.Indexed := by
  induction h with
  | new => exact indexed_new
  | register now _ hfresh ih => exact ih.register now hfresh
  | subscribe _ hafter ih => exact ih.subscribe hafter
  | unsubscribe _ hafter ih => exact ih.unsubscribe hafter
  | unregister id _ ih => exact ih.unregister id

end Steps

-- ============================================================= the lookups

section Lookup

variable {registry : ClientRegistry} {subject : String}
  {client : ClientState}

/-- Reading the states of collected ids keeps the registered ones. -/
theorem mem_filterMap_lookup (h : registry.Indexed)
    {clientIds : List ClientId} :
    client ∈ clientIds.filterMap (fun id => registry.clients.lookup id)
      ↔ registry.Registered client ∧ client.id ∈ clientIds := by
  rw [List.mem_filterMap]
  refine ⟨fun hmem => ?_, fun hmem => ?_⟩
  · obtain ⟨id, hid, hc⟩ := hmem
    obtain rfl := h.ids id client hc
    exact ⟨hc, hid⟩
  · exact ⟨client.id, hmem.2, hmem.1⟩

/-- Distinct ids give distinct clients. -/
theorem nodup_filterMap_lookup (h : registry.Indexed)
    {clientIds : List ClientId} (hnodup : clientIds.Nodup) :
    ((clientIds.filterMap fun id => registry.clients.lookup id).map
      (·.id)).Nodup := by
  rw [List.map_filterMap]
  refine hnodup.filterMap fun id id' b hb hb' => ?_
  obtain ⟨c, hc, rfl⟩ := Option.map_eq_some_iff.1 hb
  obtain ⟨c', hc', hid⟩ := Option.map_eq_some_iff.1 hb'
  rw [← h.ids id c hc, ← h.ids id' c' hc', hid]

/-- The ids of a subject: those with a matching pattern in an index. -/
theorem mem_matchedClients {id : ClientId} :
    id ∈ registry.matchedClients subject
      ↔ registry.exactSubscriptions.Filed subject id
        ∨ ∃ p, Listed registry.wildcardPatterns p id
            ∧ matchesSubject p (splitDots subject) = true := by
  -- the walk over the patterns, from any set
  have hwalk : ∀ (patterns : List (String × HashSet ClientId))
      (matched : HashSet ClientId),
      id ∈ patterns.foldl (fun matched e =>
          if matchesSubject e.1 (splitDots subject) then
            matched.extend e.2.items
          else matched) matched
        ↔ id ∈ matched ∨ ∃ p, Listed patterns p id
            ∧ matchesSubject p (splitDots subject) = true := by
    intro patterns
    induction patterns with
    | nil => simp [listed_nil]
    | cons e patterns ih =>
        intro matched
        have hhere : (∃ p, Listed (e :: patterns) p id
              ∧ matchesSubject p (splitDots subject) = true)
            ↔ (id ∈ e.2 ∧ matchesSubject e.1 (splitDots subject) = true)
              ∨ ∃ p, Listed patterns p id
                ∧ matchesSubject p (splitDots subject) = true := by
          simp only [listed_cons, or_and_right, exists_or, and_assoc,
            exists_eq_left']
        rw [List.foldl_cons, ih, hhere]
        cases hm : matchesSubject e.1 (splitDots subject) with
        | true =>
            rw [if_pos rfl, HashSet.mem_extend, HashSet.mem_items,
              or_assoc]
            simp
        | false =>
            rw [if_neg Bool.false_ne_true]
            simp
  unfold matchedClients
  rw [hwalk, HashMap.filed_iff_getD]
  cases registry.exactSubscriptions.lookup subject with
  | none => simp
  | some clientIds => simp [HashSet.mem_items]

/-- The exact index and the wildcard list together answer for every
pattern. -/
theorem mem_matchedClients_iff (h : registry.Indexed) {id : ClientId} :
    id ∈ registry.matchedClients subject
      ↔ ∃ p, registry.Holds id p
          ∧ matchesSubject p (splitDots subject) = true := by
  rw [mem_matchedClients, h.exact]
  simp only [h.wildcard]
  refine ⟨fun hid => ?_, fun hid => ?_⟩
  · rcases hid with ⟨hexact, hholds⟩ | ⟨p, ⟨-, hholds⟩, hmatch⟩
    · exact ⟨subject, hholds, (matchesSubject_exact hexact subject).2 rfl⟩
    · exact ⟨p, hholds, hmatch⟩
  · obtain ⟨p, hholds, hmatch⟩ := hid
    cases hw : isWildcardPattern p with
    | true => exact Or.inr ⟨p, ⟨hw, hholds⟩, hmatch⟩
    | false =>
        obtain rfl := (matchesSubject_exact hw subject).1 hmatch
        exact Or.inl ⟨hw, hholds⟩

theorem mem_getMatchingSubscribers (h : registry.Indexed) :
    client ∈ registry.getMatchingSubscribers subject
      ↔ registry.Registered client
        ∧ ∃ p ∈ client.subscriptions,
            matchesSubject p (splitDots subject) = true := by
  unfold getMatchingSubscribers
  rw [mem_filterMap_lookup h, HashSet.mem_items,
    mem_matchedClients_iff h]
  refine and_congr_right fun hreg => ?_
  unfold Registered at hreg
  simp [Holds, hreg]

theorem mem_getSubscribersExact (h : registry.Indexed) :
    client ∈ registry.getSubscribersExact subject
      ↔ registry.Registered client ∧ subject ∈ client.subscriptions := by
  have hmem : client ∈ registry.getSubscribersExact subject
      ↔ registry.Registered client
        ∧ registry.subscriptions.Filed subject client.id := by
    unfold getSubscribersExact HashMap.Filed
    cases registry.subscriptions.lookup subject with
    | none => simp
    | some clientIds =>
        simp only [mem_filterMap_lookup h, HashSet.mem_items]
        simp
  rw [hmem, h.main]
  refine and_congr_right fun hreg => ?_
  unfold Registered at hreg
  simp [Holds, hreg]

/-- The split indexes agree with the plain definition: in every reachable
registry, each lookup yields every client that should be found, once, and
no other. -/
theorem subscribers_agree (h : registry.Reachable) (subject : String) :
    (((registry.getMatchingSubscribers subject).map (·.id)).Nodup
      ∧ ∀ client, client ∈ registry.getMatchingSubscribers subject
        ↔ registry.Registered client
          ∧ ∃ p ∈ client.subscriptions,
              matchesSubject p (splitDots subject) = true)
      ∧ ((registry.getSubscribersExact subject).map (·.id)).Nodup
      ∧ ∀ client, client ∈ registry.getSubscribersExact subject
        ↔ registry.Registered client
          ∧ subject ∈ client.subscriptions := by
  have hindexed := h.indexed
  refine ⟨⟨?_, fun client => mem_getMatchingSubscribers hindexed⟩, ?_,
    fun client => mem_getSubscribersExact hindexed⟩
  · exact nodup_filterMap_lookup hindexed
      (registry.matchedClients subject).nodup
  · unfold getSubscribersExact
    cases registry.subscriptions.lookup subject with
    | none => exact List.nodup_nil
    | some clientIds =>
        exact nodup_filterMap_lookup hindexed clientIds.nodup

end Lookup

/-- A client with two matching patterns and one whose wildcard character
is an ordinary one. -/
theorem subscribers_agree_two_patterns :
    let registry := ["m.*", "m.t", "m>.t"].foldl (subscribeTo 1)
      (new.register (.new 1 0))
    (((registry.getMatchingSubscribers "m.t").map (·.id)).Nodup
      ∧ ∀ client, client ∈ registry.getMatchingSubscribers "m.t"
        ↔ registry.Registered client
          ∧ ∃ p ∈ client.subscriptions,
              matchesSubject p (splitDots "m.t") = true)
      ∧ ((registry.getSubscribersExact "m.t").map (·.id)).Nodup
      ∧ ∀ client, client ∈ registry.getSubscribersExact "m.t"
        ↔ registry.Registered client
          ∧ "m.t" ∈ client.subscriptions := by
  intro registry
  have hfresh : new.clients.lookup 1 = none := rfl
  have hsub : (new.register (.new 1 0)).subscribe 1
      ["m.*", "m.t", "m>.t"] = .ok registry := rfl
  exact subscribers_agree (.subscribe (.register 0 .new hfresh) hsub) "m.t"

end ClientRegistry

end Wup.Gateway
