/-
The subscription indexes agree with the clients' own subscriptions.

`Indexed` relates the three indexes to one relation: which registered
client holds which pattern. Every operation of the registry keeps it. An
operation is a loop over subjects; what one subject does to an index is a
lemma about that index alone, and the invariant is reassembled from them.

# Lookups

An exact pattern matches the subject it spells and no other, so the exact
index answers for every pattern without wildcard characters, also where
`*` and `>` stand inside a segment of the subject.
-/
import Wup.Gateway.Client

namespace Wup.Gateway

-- ======================================================= the wildcard list

/-- The list files the client under the pattern. -/
def Listed (patterns : List (String × HashSet ClientId)) (pattern : String)
    (clientId : ClientId) : Prop :=
  ∃ e ∈ patterns, e.1 = pattern ∧ clientId ∈ e.2

section Patterns

variable {patterns : List (String × HashSet ClientId)}
  {pattern s : String} {clientId id : ClientId}

theorem listed_nil : ¬ Listed [] s id := by simp [Listed]

theorem listed_cons {e : String × HashSet ClientId} :
    Listed (e :: patterns) s id
      ↔ (e.1 = s ∧ id ∈ e.2) ∨ Listed patterns s id := by
  simp [Listed]

theorem listed_addToPattern :
    Listed (addToPattern pattern clientId patterns) s id
      ↔ (s = pattern ∧ id = clientId) ∨ Listed patterns s id := by
  induction patterns with
  | nil =>
      rw [addToPattern, listed_cons, HashSet.mem_insert]
      simp [listed_nil, eq_comm]
  | cons e patterns ih =>
      rw [addToPattern]
      by_cases he : e.1 = pattern
      · rw [if_pos he, listed_cons, listed_cons, HashSet.mem_insert, he]
        refine ⟨fun h => ?_, fun h => ?_⟩
        · rcases h with ⟨hs, hid | hid⟩ | h
          · exact Or.inl ⟨hs.symm, hid⟩
          · exact Or.inr (Or.inl ⟨hs, hid⟩)
          · exact Or.inr (Or.inr h)
        · rcases h with ⟨hs, hid⟩ | ⟨hs, hid⟩ | h
          · exact Or.inl ⟨hs.symm, Or.inl hid⟩
          · exact Or.inl ⟨hs, Or.inr hid⟩
          · exact Or.inr h
      · rw [if_neg he, listed_cons, listed_cons, ih]
        exact or_left_comm

theorem names_addToPattern :
    (addToPattern pattern clientId patterns).map (·.1)
      = if pattern ∈ patterns.map (·.1) then patterns.map (·.1)
        else patterns.map (·.1) ++ [pattern] := by
  induction patterns with
  | nil => rfl
  | cons e patterns ih =>
      rw [addToPattern]
      by_cases he : e.1 = pattern
      · rw [if_pos he, if_pos (by simp [he])]
        rfl
      · rw [if_neg he, List.map_cons, ih, List.map_cons]
        have hmem : pattern ∈ e.1 :: patterns.map (·.1)
            ↔ pattern ∈ patterns.map (·.1) := by
          rw [List.mem_cons, or_iff_right (Ne.symm he)]
        by_cases hp : pattern ∈ patterns.map (·.1)
        · rw [if_pos hp, if_pos (hmem.2 hp)]
        · rw [if_neg hp, if_neg fun h => hp (hmem.1 h)]
          rfl

theorem nodup_addToPattern (h : (patterns.map (·.1)).Nodup) :
    ((addToPattern pattern clientId patterns).map (·.1)).Nodup := by
  rw [names_addToPattern]
  split
  · exact h
  · next hp =>
      refine h.append (List.nodup_singleton _) ?_
      exact List.disjoint_singleton.2 hp

theorem names_removeFromPattern :
    (removeFromPattern pattern clientId patterns).map (·.1)
      = patterns.map (·.1) := by
  induction patterns with
  | nil => rfl
  | cons e patterns ih =>
      rw [removeFromPattern]
      split
      · rfl
      · rw [List.map_cons, ih, List.map_cons]

/-- Only the first entry of a pattern is touched, and there is no other. -/
theorem listed_removeFromPattern (h : (patterns.map (·.1)).Nodup) :
    Listed (removeFromPattern pattern clientId patterns) s id
      ↔ ¬(s = pattern ∧ id = clientId) ∧ Listed patterns s id := by
  induction patterns with
  | nil => simp [removeFromPattern, listed_nil]
  | cons e patterns ih =>
      rw [List.map_cons, List.nodup_cons] at h
      rw [removeFromPattern]
      by_cases he : e.1 = pattern
      · rw [if_pos he, listed_cons, listed_cons, HashSet.mem_remove]
        have hrest : Listed patterns s id → s ≠ pattern := by
          intro hl hs
          obtain ⟨e', he', hes, -⟩ := hl
          exact h.1 (List.mem_map.2 ⟨e', he', by rw [hes, hs, he]⟩)
        refine ⟨fun hl => ?_, fun hl => ?_⟩
        · rcases hl with ⟨hs, hne, hid⟩ | hl
          · exact ⟨fun hc => hne hc.2, Or.inl ⟨hs, hid⟩⟩
          · exact ⟨fun hc => hrest hl hc.1, Or.inr hl⟩
        · obtain ⟨hne, ⟨hs, hid⟩ | hl⟩ := hl
          · exact Or.inl ⟨hs, fun hc => hne ⟨by rw [← hs, he], hc⟩, hid⟩
          · exact Or.inr hl
      · rw [if_neg he, listed_cons, listed_cons, ih h.2]
        refine ⟨fun hl => ?_, fun hl => ?_⟩
        · rcases hl with ⟨hs, hid⟩ | ⟨hne, hl⟩
          · exact ⟨fun hc => he (hs.trans hc.1), Or.inl ⟨hs, hid⟩⟩
          · exact ⟨hne, Or.inr hl⟩
        · obtain ⟨hne, hl | hl⟩ := hl
          · exact Or.inl hl
          · exact Or.inr ⟨hne, hl⟩

/-- Taking a client out of every entry takes it out everywhere. -/
theorem listed_map_remove :
    Listed (patterns.map fun e => (e.1, e.2.remove clientId)) s id
      ↔ id ≠ clientId ∧ Listed patterns s id := by
  unfold Listed
  refine ⟨fun h => ?_, fun h => ?_⟩
  · obtain ⟨e', he', hs, hid⟩ := h
    obtain ⟨e, he, rfl⟩ := List.mem_map.1 he'
    rw [HashSet.mem_remove] at hid
    exact ⟨hid.1, e, he, hs, hid.2⟩
  · obtain ⟨hne, e, he, hs, hid⟩ := h
    exact ⟨_, List.mem_map.2 ⟨e, he, rfl⟩, hs,
      HashSet.mem_remove.2 ⟨hne, hid⟩⟩

end Patterns

-- =========================================================== the invariant

namespace ClientRegistry

/-- A registered client holds a pattern. -/
def Holds (registry : ClientRegistry) (clientId : ClientId)
    (pattern : String) : Prop :=
  ∃ client, registry.clients.lookup clientId = some client
    ∧ pattern ∈ client.subscriptions

instance (registry : ClientRegistry) (clientId : ClientId)
    (pattern : String) : Decidable (registry.Holds clientId pattern) :=
  decidable_of_iff
    (∃ client ∈ registry.clients.lookup clientId,
      pattern ∈ client.subscriptions) Iff.rfl

/-- The indexes file exactly what the registered clients hold. -/
structure Indexed (registry : ClientRegistry) : Prop where
  ids : ∀ id client, registry.clients.lookup id = some client →
    client.id = id
  main : ∀ s id, registry.subscriptions.Filed s id ↔ registry.Holds id s
  exact : ∀ s id, registry.exactSubscriptions.Filed s id
    ↔ isWildcardPattern s = false ∧ registry.Holds id s
  wildcard : ∀ s id, Listed registry.wildcardPatterns s id
    ↔ isWildcardPattern s = true ∧ registry.Holds id s
  names : (registry.wildcardPatterns.map (·.1)).Nodup

theorem indexed_new : new.Indexed := by
  have hnone : ∀ {id s}, ¬ new.Holds id s := by
    intro id s h
    obtain ⟨client, hc, -⟩ := h
    cases hc
  refine ⟨fun id client h => (nomatch h), fun s id => ?_, fun s id => ?_,
    fun s id => ?_, List.nodup_nil⟩
  · exact iff_of_false (fun h => (nomatch h.choose_spec.1)) hnone
  · exact iff_of_false (fun h => (nomatch h.choose_spec.1))
      fun h => hnone h.2
  · exact iff_of_false listed_nil fun h => hnone h.2

section Operations

variable {registry : ClientRegistry} {clientId id : ClientId}
  {subject s : String}

-- ================================================================ register

/-- New client states that hold what the old ones held. -/
theorem Indexed.withClients (h : registry.Indexed)
    {clients : HashMap ClientId ClientState}
    (hids : ∀ id client, clients.lookup id = some client → client.id = id)
    (hholds : ∀ id s, Holds { registry with clients := clients } id s
      ↔ registry.Holds id s) :
    Indexed { registry with clients := clients } := by
  refine ⟨hids, fun s id => ?_, fun s id => ?_, fun s id => ?_, h.names⟩
  · rw [hholds]
    exact h.main s id
  · rw [hholds]
    exact h.exact s id
  · rw [hholds]
    exact h.wildcard s id

theorem lookup_register (now : Int) :
    (registry.register (.new clientId now)).clients.lookup id
      = if id = clientId then some (.new clientId now)
        else registry.clients.lookup id :=
  HashMap.lookup_insert' ..

/-- A new client with a fresh id holds nothing. -/
theorem holds_register (now : Int)
    (hfresh : registry.clients.lookup clientId = none) :
    (registry.register (.new clientId now)).Holds id s
      ↔ registry.Holds id s := by
  unfold Holds
  rw [lookup_register]
  by_cases hid : id = clientId
  · rw [if_pos hid, hid, hfresh]
    simp [ClientState.new]
  · rw [if_neg hid]

theorem Indexed.register (h : registry.Indexed) (now : Int)
    (hfresh : registry.clients.lookup clientId = none) :
    (registry.register (.new clientId now)).Indexed := by
  refine h.withClients (fun id client hc => ?_)
    fun id s => holds_register now hfresh
  have hlookup : (registry.register (.new clientId now)).clients.lookup id
      = some client := hc
  rw [lookup_register] at hlookup
  split at hlookup
  · next hid =>
      obtain rfl := Option.some.inj hlookup
      exact hid.symm
  · exact h.ids id client hlookup

-- ============================================================== one client

theorem lookup_modifyClient (f : ClientState → ClientState) :
    (registry.modifyClient clientId f).clients.lookup id
      = if id = clientId then (registry.clients.lookup clientId).map f
        else registry.clients.lookup id := by
  unfold modifyClient
  cases hc : registry.clients.lookup clientId with
  | none =>
      by_cases hid : id = clientId
      · rw [if_pos hid, hid]
        exact hc
      · rw [if_neg hid]
  | some client =>
      rw [HashMap.lookup_insert', Option.map_some]

theorem ids_modifyClient (h : registry.Indexed)
    {f : ClientState → ClientState} (hf : ∀ c, (f c).id = c.id)
    {client : ClientState}
    (hc : (registry.modifyClient clientId f).clients.lookup id
      = some client) : client.id = id := by
  rw [lookup_modifyClient] at hc
  split at hc
  · next hid =>
      obtain ⟨c, hlookup, rfl⟩ := Option.map_eq_some_iff.1 hc
      rw [hf, hid]
      exact h.ids clientId c hlookup
  · exact h.ids id client hc

theorem holds_modifyClient (f : ClientState → ClientState) :
    (registry.modifyClient clientId f).Holds id s
      ↔ if id = clientId then
          ∃ c, registry.clients.lookup clientId = some c
            ∧ s ∈ (f c).subscriptions
        else registry.Holds id s := by
  unfold Holds
  rw [lookup_modifyClient]
  by_cases hid : id = clientId
  · rw [if_pos hid, if_pos hid]
    cases registry.clients.lookup clientId with
    | none => simp
    | some c => simp
  · rw [if_neg hid, if_neg hid]

/-- A change of one client's state that leaves its subscriptions alone
changes nobody's. -/
theorem holds_modifyClient_frame {f : ClientState → ClientState}
    (hsubs : ∀ c, (f c).subscriptions = c.subscriptions) :
    (registry.modifyClient clientId f).Holds id s
      ↔ registry.Holds id s := by
  rw [holds_modifyClient]
  by_cases he : id = clientId
  · rw [if_pos he, he]
    simp only [hsubs]
    exact Iff.rfl
  · rw [if_neg he]

/-- A change of one client's state that leaves its id and subscriptions
alone is invisible to the indexes. -/
theorem Indexed.modifyClient (h : registry.Indexed) (clientId : ClientId)
    {f : ClientState → ClientState} (hid : ∀ c, (f c).id = c.id)
    (hsubs : ∀ c, (f c).subscriptions = c.subscriptions) :
    (registry.modifyClient clientId f).Indexed := by
  have hids : ∀ id client,
      (registry.modifyClient clientId f).clients.lookup id = some client →
      client.id = id := fun id client hc => ids_modifyClient h hid hc
  have hholds : ∀ id s, (registry.modifyClient clientId f).Holds id s
      ↔ registry.Holds id s := fun id s => holds_modifyClient_frame hsubs
  unfold ClientRegistry.modifyClient at hids hholds ⊢
  split
  · next client hc =>
      simp only [hc] at hids hholds
      exact h.withClients hids hholds
  · exact h

-- =============================================================== subscribe

section Fields

variable (f : ClientState → ClientState)

@[simp] theorem modifyClient_subscriptions :
    (registry.modifyClient clientId f).subscriptions
      = registry.subscriptions := by
  unfold modifyClient
  split <;> rfl

@[simp] theorem modifyClient_exactSubscriptions :
    (registry.modifyClient clientId f).exactSubscriptions
      = registry.exactSubscriptions := by
  unfold modifyClient
  split <;> rfl

@[simp] theorem modifyClient_wildcardPatterns :
    (registry.modifyClient clientId f).wildcardPatterns
      = registry.wildcardPatterns := by
  unfold modifyClient
  split <;> rfl

end Fields

section Kinds

variable {kind : Bool} {here filed held : Prop}

/-- An index of one kind of subjects holds of these what is held; it still
does when one more subject is filed in the index of its kind. -/
theorem filed_more (hhere : here → s = subject)
    (h : filed ↔ isWildcardPattern s = kind ∧ held) :
    (if isWildcardPattern subject = kind then here ∨ filed else filed)
      ↔ isWildcardPattern s = kind ∧ (here ∨ held) := by
  by_cases hs : here
  · obtain rfl := hhere hs
    split
    · next hkind => simp [hs, hkind]
    · next hkind => simp [h, hkind]
  · simp [h, hs]

/-- And when one is taken out of it. -/
theorem filed_less (hhere : here → s = subject)
    (h : filed ↔ isWildcardPattern s = kind ∧ held) :
    (if isWildcardPattern subject = kind then ¬here ∧ filed else filed)
      ↔ isWildcardPattern s = kind ∧ (¬here ∧ held) := by
  by_cases hs : here
  · obtain rfl := hhere hs
    split
    · next hkind => simp [hs]
    · next hkind => simp [h, hkind]
  · simp [h, hs]

end Kinds

/-- Where one more subscription is filed. -/
theorem subscribeTo_eq :
    subscribeTo clientId registry subject
      = { clients := (registry.modifyClient clientId fun client =>
            { client with subscriptions :=
                client.subscriptions.insert subject }).clients
          subscriptions := registry.subscriptions.file subject clientId
          exactSubscriptions :=
            if isWildcardPattern subject then registry.exactSubscriptions
            else registry.exactSubscriptions.file subject clientId
          wildcardPatterns :=
            if isWildcardPattern subject then
              addToPattern subject clientId registry.wildcardPatterns
            else registry.wildcardPatterns } := by
  unfold subscribeTo
  cases isWildcardPattern subject <;> simp

theorem registered_subscribeTo
    (hreg : (registry.clients.lookup clientId).isSome = true) :
    ((subscribeTo clientId registry subject).clients.lookup
      clientId).isSome = true := by
  rw [subscribeTo_eq]
  show ((registry.modifyClient clientId _).clients.lookup
    clientId).isSome = true
  rw [lookup_modifyClient, if_pos rfl, Option.isSome_map]
  exact hreg

theorem holds_subscribeTo
    (hreg : (registry.clients.lookup clientId).isSome = true) :
    (subscribeTo clientId registry subject).Holds id s
      ↔ (s = subject ∧ id = clientId) ∨ registry.Holds id s := by
  have hclients : (subscribeTo clientId registry subject).Holds id s
      ↔ (registry.modifyClient clientId fun client =>
          { client with
            subscriptions := client.subscriptions.insert subject }).Holds
          id s := by
    rw [subscribeTo_eq]
    exact Iff.rfl
  rw [hclients, holds_modifyClient]
  by_cases hid : id = clientId
  · obtain ⟨c, hc⟩ := Option.isSome_iff_exists.1 hreg
    rw [if_pos hid, hid, Holds, hc]
    simp
  · rw [if_neg hid]
    simp [hid]

/-- One more subscription of a registered client. -/
theorem Indexed.subscribeTo (h : registry.Indexed)
    (hreg : (registry.clients.lookup clientId).isSome = true) :
    (subscribeTo clientId registry subject).Indexed := by
  have hholds : ∀ id s,
      (ClientRegistry.subscribeTo clientId registry subject).Holds id s
        ↔ (s = subject ∧ id = clientId) ∨ registry.Holds id s :=
    fun id s => holds_subscribeTo hreg
  refine ⟨fun id client hc => ?_, fun s id => ?_, fun s id => ?_,
    fun s id => ?_, ?_⟩
  · rw [subscribeTo_eq] at hc
    refine ids_modifyClient h ?_ hc
    exact fun _ => rfl
  · rw [hholds, subscribeTo_eq, HashMap.filed_file, h.main]
  · rw [hholds, ← filed_more And.left (h.exact s id), subscribeTo_eq]
    show HashMap.Filed (if _ then _ else _) s id ↔ _
    cases isWildcardPattern subject with
    | true => exact Iff.rfl
    | false => exact HashMap.filed_file
  · rw [hholds, ← filed_more And.left (h.wildcard s id), subscribeTo_eq]
    show Listed (if _ then _ else _) s id ↔ _
    cases isWildcardPattern subject with
    | true => exact listed_addToPattern
    | false => exact Iff.rfl
  · rw [subscribeTo_eq]
    show ((if _ then _ else _ : List _).map _).Nodup
    split
    · exact nodup_addToPattern h.names
    · exact h.names

-- ============================================================= unsubscribe

/-- Where one subscription is taken out. -/
theorem unsubscribeFrom_eq :
    unsubscribeFrom clientId registry subject
      = { clients := (registry.modifyClient clientId fun client =>
            { client with subscriptions :=
                client.subscriptions.remove subject }).clients
          subscriptions := registry.subscriptions.unfile subject clientId
          exactSubscriptions :=
            if isWildcardPattern subject then registry.exactSubscriptions
            else registry.exactSubscriptions.unfile subject clientId
          wildcardPatterns :=
            if isWildcardPattern subject then
              removeFromPattern subject clientId registry.wildcardPatterns
            else registry.wildcardPatterns } := by
  unfold unsubscribeFrom
  cases isWildcardPattern subject <;> simp

theorem holds_unsubscribeFrom :
    (unsubscribeFrom clientId registry subject).Holds id s
      ↔ ¬(s = subject ∧ id = clientId) ∧ registry.Holds id s := by
  have hclients : (unsubscribeFrom clientId registry subject).Holds id s
      ↔ (registry.modifyClient clientId fun client =>
          { client with
            subscriptions := client.subscriptions.remove subject }).Holds
          id s := by
    rw [unsubscribeFrom_eq]
    exact Iff.rfl
  rw [hclients, holds_modifyClient]
  by_cases hid : id = clientId
  · rw [if_pos hid, hid, Holds]
    refine ⟨fun hs => ?_, fun hs => ?_⟩
    · obtain ⟨c, hc, hs⟩ := hs
      rw [HashSet.mem_remove] at hs
      exact ⟨fun he => hs.1 he.1, c, hc, hs.2⟩
    · obtain ⟨hne, c, hc, hs⟩ := hs
      exact ⟨c, hc, HashSet.mem_remove.2 ⟨fun he => hne ⟨he, rfl⟩, hs⟩⟩
  · rw [if_neg hid]
    simp [hid]

/-- One subscription less. -/
theorem Indexed.unsubscribeFrom (h : registry.Indexed) :
    (unsubscribeFrom clientId registry subject).Indexed := by
  have hholds : ∀ id s,
      (ClientRegistry.unsubscribeFrom clientId registry subject).Holds id s
        ↔ ¬(s = subject ∧ id = clientId) ∧ registry.Holds id s :=
    fun id s => holds_unsubscribeFrom
  refine ⟨fun id client hc => ?_, fun s id => ?_, fun s id => ?_,
    fun s id => ?_, ?_⟩
  · rw [unsubscribeFrom_eq] at hc
    refine ids_modifyClient h ?_ hc
    exact fun _ => rfl
  · rw [hholds, unsubscribeFrom_eq, HashMap.filed_unfile, h.main]
  · rw [hholds, ← filed_less And.left (h.exact s id), unsubscribeFrom_eq]
    show HashMap.Filed (if _ then _ else _) s id ↔ _
    cases isWildcardPattern subject with
    | true => exact Iff.rfl
    | false => exact HashMap.filed_unfile
  · rw [hholds, ← filed_less And.left (h.wildcard s id),
      unsubscribeFrom_eq]
    show Listed (if _ then _ else _) s id ↔ _
    cases isWildcardPattern subject with
    | true => exact listed_removeFromPattern h.names
    | false => exact Iff.rfl
  · rw [unsubscribeFrom_eq]
    show ((if _ then _ else _ : List _).map _).Nodup
    split
    · rw [names_removeFromPattern]
      exact h.names
    · exact h.names

-- ============================================================== unregister

/-- Where one subject of a leaving client is taken out. -/
theorem dropSubject_eq :
    dropSubject clientId registry subject
      = { clients := registry.clients
          subscriptions := registry.subscriptions.unfile subject clientId
          exactSubscriptions :=
            if isWildcardPattern subject then registry.exactSubscriptions
            else registry.exactSubscriptions.unfile subject clientId
          wildcardPatterns :=
            if isWildcardPattern subject then
              registry.wildcardPatterns.map fun e =>
                (e.1, e.2.remove clientId)
            else registry.wildcardPatterns } := by
  unfold dropSubject
  cases isWildcardPattern subject <;> simp

/-- What the loop over the subjects of a leaving client does. -/
structure Dropped (clientId : ClientId) (subjects : List String)
    (before after : ClientRegistry) : Prop where
  clients : after.clients = before.clients
  main : ∀ s id, after.subscriptions.Filed s id
    ↔ ¬(s ∈ subjects ∧ id = clientId) ∧ before.subscriptions.Filed s id
  exact : ∀ s id, after.exactSubscriptions.Filed s id
    ↔ ¬(s ∈ subjects ∧ isWildcardPattern s = false ∧ id = clientId)
      ∧ before.exactSubscriptions.Filed s id
  wildcard : ∀ s id, Listed after.wildcardPatterns s id
    ↔ ¬((∃ w ∈ subjects, isWildcardPattern w = true) ∧ id = clientId)
      ∧ Listed before.wildcardPatterns s id
  names : after.wildcardPatterns.map (·.1)
    = before.wildcardPatterns.map (·.1)

theorem dropped_foldl (clientId : ClientId) (subjects : List String)
    (registry : ClientRegistry) :
    Dropped clientId subjects registry
      (subjects.foldl (dropSubject clientId) registry) := by
  induction subjects generalizing registry with
  | nil =>
      exact ⟨rfl, fun s id => by simp, fun s id => by simp,
        fun s id => by simp, rfl⟩
  | cons subject subjects ih =>
      have ih := ih (dropSubject clientId registry subject)
      rw [List.foldl_cons]
      refine ⟨?_, fun s id => ?_, fun s id => ?_, fun s id => ?_, ?_⟩
      · rw [ih.clients, dropSubject_eq]
      · rw [ih.main, dropSubject_eq, HashMap.filed_unfile, List.mem_cons]
        tauto
      · rw [ih.exact, dropSubject_eq]
        show _ ∧ HashMap.Filed (if _ then _ else _) s id ↔ _
        rw [List.mem_cons]
        cases hw : isWildcardPattern subject with
        | true =>
            rw [if_pos rfl]
            by_cases hs : s = subject
            · simp [hs, hw]
            · simp [hs]
        | false =>
            rw [if_neg Bool.false_ne_true, HashMap.filed_unfile]
            by_cases hs : s = subject
            · simp only [hs, hw]
              tauto
            · simp [hs]
      · rw [ih.wildcard, dropSubject_eq]
        show _ ∧ Listed (if _ then _ else _) s id ↔ _
        simp only [List.exists_mem_cons_iff]
        cases hw : isWildcardPattern subject with
        | true =>
            rw [if_pos rfl, listed_map_remove]
            tauto
        | false =>
            rw [if_neg Bool.false_ne_true]
            simp
      · rw [ih.names, dropSubject_eq]
        show (if _ then _ else _ : List _).map _ = _
        split
        · rw [List.map_map]
          rfl
        · rfl

theorem lookup_unregister :
    (registry.unregister clientId).clients.lookup id
      = if id = clientId then none else registry.clients.lookup id := by
  unfold ClientRegistry.unregister
  cases hc : registry.clients.lookup clientId with
  | none =>
      by_cases hid : id = clientId
      · rw [if_pos hid, hid]
        exact hc
      · rw [if_neg hid]
  | some client =>
      have hdrop := dropped_foldl clientId client.subscriptions.items
        { registry with clients := registry.clients.erase clientId }
      simp only [hdrop.clients]
      exact HashMap.lookup_erase' ..

/-- A client that leaves is taken out of every index it was filed in. -/
theorem Indexed.unregister (h : registry.Indexed) (clientId : ClientId) :
    (registry.unregister clientId).Indexed := by
  have hlookup (id : ClientId) :
      (registry.unregister clientId).clients.lookup id
        = if id = clientId then none else registry.clients.lookup id :=
    lookup_unregister
  unfold ClientRegistry.unregister at hlookup ⊢
  cases hc : registry.clients.lookup clientId with
  | none => exact h
  | some client =>
      have hdrop := dropped_foldl clientId client.subscriptions.items
        { registry with clients := registry.clients.erase clientId }
      simp only [hc] at hlookup
      have hholds : ∀ id s, (client.subscriptions.items.foldl
          (dropSubject clientId) { registry with
            clients := registry.clients.erase clientId }).Holds id s
          ↔ id ≠ clientId ∧ registry.Holds id s := by
        intro id s
        unfold Holds
        rw [hlookup]
        by_cases hid : id = clientId <;> simp [hid]
      -- what the leaving client held is what the loop walks
      have hown : ∀ s, registry.Holds clientId s
          ↔ s ∈ client.subscriptions.items := by
        intro s
        unfold Holds
        rw [hc]
        simp [HashSet.mem_items]
      refine ⟨fun id c hl => ?_, fun s id => ?_, fun s id => ?_,
        fun s id => ?_, ?_⟩
      · rw [hlookup] at hl
        split at hl
        · cases hl
        · exact h.ids id c hl
      · rw [hdrop.main, hholds, h.main]
        by_cases hid : id = clientId
        · rw [hid, hown]
          simp
        · simp [hid]
      · rw [hdrop.exact, hholds, h.exact]
        by_cases hid : id = clientId
        · rw [hid, hown]
          simp only [ne_eq, not_true, false_and, and_false, and_true]
          exact iff_false_intro fun hs => hs.1 ⟨hs.2.2, hs.2.1⟩
        · simp [hid]
      · rw [hdrop.wildcard, hholds, h.wildcard]
        by_cases hid : id = clientId
        · rw [hid, hown]
          simp only [ne_eq, not_true, false_and, and_false, and_true]
          exact iff_false_intro fun hs => hs.1 ⟨s, hs.2.2, hs.2.1⟩
        · simp [hid]
      · rw [hdrop.names]
        exact h.names

end Operations

end ClientRegistry

end Wup.Gateway
