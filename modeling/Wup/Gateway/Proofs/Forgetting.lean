/-
What the registry forgets.

A subscription opens an entry in the main index and one in the exact index
or the wildcard list; taking a client out of an entry empties it at most
and never removes it. So the entries are the subjects ever subscribed to:
the other two indexes have those of the main one (`Aligned`), and the main
one keeps every key.

The registry has forgotten what nobody holds (`Forgotten`) exactly when
every key of the main index still has a holder. An unsubscribe or a client
that leaves keeps it so exactly when it takes no subject from its last
holder (`Spares`), and after the first that does, the count is too high.
-/
import Wup.Gateway.Proofs.Lookup
import Wup.Lib.Runs

namespace Wup.Gateway

open Runs (Reached)

namespace ClientRegistry

-- ============================================================= the actions

/-- A call of the registry. -/
inductive RegistryCall
  | register (clientId : ClientId) (now : Int)
  | subscribe (clientId : ClientId) (subjects : List String)
  | unsubscribe (clientId : ClientId) (subjects : List String)
  | unregister (clientId : ClientId)

/-- The registry after a call; `none` where the call is refused, and for
an id that is taken, since every connection draws its own. -/
def act (registry : ClientRegistry) : RegistryCall → Option ClientRegistry
  | .register clientId now =>
      if (registry.clients.lookup clientId).isSome then none
      else some (registry.register (.new clientId now))
  | .subscribe clientId subjects =>
      (registry.subscribe clientId subjects).toOption
  | .unsubscribe clientId subjects =>
      (registry.unsubscribe clientId subjects).toOption
  | .unregister clientId => some (registry.unregister clientId)

theorem act_register {registry after : ClientRegistry}
    {clientId : ClientId} {now : Int}
    (h : registry.act (.register clientId now) = some after) :
    registry.clients.lookup clientId = none
      ∧ after = registry.register (.new clientId now) := by
  have hact : (if (registry.clients.lookup clientId).isSome then none
      else some (registry.register (.new clientId now))) = some after := h
  split at hact
  · cases hact
  · next hfresh =>
      rw [Option.not_isSome_iff_eq_none] at hfresh
      exact ⟨hfresh, (Option.some.inj hact).symm⟩

private theorem ok_of_toOption {ε α : Type*} {x : Except ε α} {a : α}
    (h : x.toOption = some a) : x = .ok a := by
  cases x with
  | error e => cases h
  | ok b => exact congrArg _ (Option.some.inj h)

/-- A registered client is subscribed to the subject. -/
def Held (registry : ClientRegistry) (subject : String) : Prop :=
  ∃ id, registry.Holds id subject

/-- The count is that of the subjects somebody holds, the wildcard list
has only patterns with a subscriber, and with the last client everything
is gone. -/
structure Forgotten (registry : ClientRegistry) : Prop where
  count : registry.subscriptionCount = Set.ncard {s | registry.Held s}
  wildcard : ∀ e ∈ registry.wildcardPatterns, ∃ id, id ∈ e.2
  empty : registry.clients = ∅ → registry = new

/-- The call takes no subject from its last holder. -/
def Spares (registry : ClientRegistry) : RegistryCall → Prop
  | .unsubscribe clientId subjects =>
      ∀ s ∈ subjects, registry.Holds clientId s →
        ∃ id, id ≠ clientId ∧ registry.Holds id s
  | .unregister clientId =>
      ∀ s, registry.Holds clientId s →
        ∃ id, id ≠ clientId ∧ registry.Holds id s
  | _ => True

-- ============================================================= the entries

/-- The other two indexes have the entries of the main one. -/
structure Aligned (registry : ClientRegistry) : Prop where
  exact : ∀ s, s ∈ registry.exactSubscriptions
    ↔ isWildcardPattern s = false ∧ s ∈ registry.subscriptions
  wildcard : ∀ s, s ∈ registry.wildcardPatterns.map (·.1)
    ↔ isWildcardPattern s = true ∧ s ∈ registry.subscriptions

theorem aligned_new : new.Aligned :=
  ⟨fun s => by simp [new], fun s => by simp [new]⟩

section Steps

variable {registry after : ClientRegistry} {clientId id : ClientId}
  {subject s : String} {subjects : List String}

theorem mem_subscribeTo :
    s ∈ (subscribeTo clientId registry subject).subscriptions
      ↔ s = subject ∨ s ∈ registry.subscriptions := by
  rw [subscribeTo_eq]
  exact HashMap.mem_file

/-- A pattern that is added has an entry. -/
theorem mem_names_addToPattern
    {patterns : List (String × HashSet ClientId)} :
    s ∈ (addToPattern subject clientId patterns).map (·.1)
      ↔ s = subject ∨ s ∈ patterns.map (·.1) := by
  rw [names_addToPattern]
  split
  · next hmem => exact (or_iff_right_of_imp fun hs => hs ▸ hmem).symm
  · rw [List.mem_append, List.mem_singleton, or_comm]

theorem Aligned.subscribeTo (h : registry.Aligned) :
    (subscribeTo clientId registry subject).Aligned := by
  refine ⟨fun s => ?_, fun s => ?_⟩
  · rw [mem_subscribeTo, ← filed_more id (h.exact s), subscribeTo_eq]
    show s ∈ (if _ then _ else _ : HashMap String _) ↔ _
    cases isWildcardPattern subject with
    | true => exact Iff.rfl
    | false => exact HashMap.mem_file
  · rw [mem_subscribeTo, ← filed_more id (h.wildcard s), subscribeTo_eq]
    show s ∈ (if _ then _ else _ : List _).map _ ↔ _
    cases isWildcardPattern subject with
    | true => exact mem_names_addToPattern
    | false => exact Iff.rfl

/-- The entries of every index as they were. -/
structure SameEntries (before after : ClientRegistry) : Prop where
  main : ∀ s, s ∈ after.subscriptions ↔ s ∈ before.subscriptions
  exact : ∀ s, s ∈ after.exactSubscriptions
    ↔ s ∈ before.exactSubscriptions
  wildcard : after.wildcardPatterns.map (·.1)
    = before.wildcardPatterns.map (·.1)

theorem SameEntries.trans {r₁ r₂ r₃ : ClientRegistry}
    (h : SameEntries r₁ r₂) (h' : SameEntries r₂ r₃) : SameEntries r₁ r₃ :=
  ⟨fun s => (h'.main s).trans (h.main s),
    fun s => (h'.exact s).trans (h.exact s), h'.wildcard.trans h.wildcard⟩

theorem SameEntries.aligned (h : SameEntries registry after)
    (ha : registry.Aligned) : after.Aligned := by
  refine ⟨fun s => ?_, fun s => ?_⟩
  · rw [h.exact, h.main, ha.exact]
  · rw [h.wildcard, h.main, ha.wildcard]

/-- A loop whose every round keeps the entries keeps them. -/
theorem sameEntries_foldl {f : ClientRegistry → String → ClientRegistry}
    (hf : ∀ registry s, SameEntries registry (f registry s))
    (registry : ClientRegistry) (subjects : List String) :
    SameEntries registry (subjects.foldl f registry) := by
  induction subjects generalizing registry with
  | nil => exact ⟨fun _ => Iff.rfl, fun _ => Iff.rfl, rfl⟩
  | cons s subjects ih => exact (hf registry s).trans (ih _)

/-- A client is taken out of the entries of a subject. -/
theorem sameEntries_of_taken {clients : HashMap ClientId ClientState}
    {patterns : List (String × HashSet ClientId)}
    (hnames : patterns.map (·.1)
      = registry.wildcardPatterns.map (·.1)) :
    SameEntries registry
      { clients := clients
        subscriptions := registry.subscriptions.unfile subject clientId
        exactSubscriptions :=
          if isWildcardPattern subject then registry.exactSubscriptions
          else registry.exactSubscriptions.unfile subject clientId
        wildcardPatterns :=
          if isWildcardPattern subject then patterns
          else registry.wildcardPatterns } := by
  refine ⟨fun s => HashMap.mem_unfile, fun s => ?_, ?_⟩
  · show s ∈ (if _ then _ else _ : HashMap String _) ↔ _
    split
    · exact Iff.rfl
    · exact HashMap.mem_unfile
  · show (if _ then _ else _ : List _).map _ = _
    split
    · exact hnames
    · rfl

theorem sameEntries_unsubscribeFrom (clientId : ClientId)
    (registry : ClientRegistry) (subject : String) :
    SameEntries registry (unsubscribeFrom clientId registry subject) := by
  rw [unsubscribeFrom_eq]
  exact sameEntries_of_taken names_removeFromPattern

theorem sameEntries_dropSubject (clientId : ClientId)
    (registry : ClientRegistry) (subject : String) :
    SameEntries registry (dropSubject clientId registry subject) := by
  rw [dropSubject_eq]
  refine sameEntries_of_taken ?_
  rw [List.map_map]
  rfl

-- ================================================================ one call

/-- What a call that opens no entry does: some clients' holdings go. -/
theorem unsubscribe_spec
    (hafter : registry.unsubscribe clientId subjects = .ok after) :
    SameEntries registry after
      ∧ ∀ id s, after.Holds id s
        ↔ ¬(s ∈ subjects ∧ id = clientId) ∧ registry.Holds id s := by
  unfold ClientRegistry.unsubscribe at hafter
  cases hc : registry.clients.lookup clientId with
  | none =>
      rw [hc] at hafter
      cases hafter
  | some client =>
      rw [hc] at hafter
      obtain rfl := Except.ok.inj hafter
      refine ⟨sameEntries_foldl (sameEntries_unsubscribeFrom clientId)
        _ _, ?_⟩
      clear hafter hc
      induction subjects generalizing registry with
      | nil => simp
      | cons subject subjects ih =>
          intro id s
          rw [List.foldl_cons, ih, holds_unsubscribeFrom, List.mem_cons]
          tauto

theorem unregister_spec (registry : ClientRegistry) (clientId : ClientId) :
    SameEntries registry (registry.unregister clientId)
      ∧ ∀ id s, (registry.unregister clientId).Holds id s
        ↔ id ≠ clientId ∧ registry.Holds id s := by
  refine ⟨?_, fun id s => ?_⟩
  · unfold ClientRegistry.unregister
    cases registry.clients.lookup clientId with
    | none => exact ⟨fun _ => Iff.rfl, fun _ => Iff.rfl, rfl⟩
    | some client =>
        have hloop := sameEntries_foldl (sameEntries_dropSubject clientId)
          { registry with clients := registry.clients.erase clientId }
          client.subscriptions.items
        exact ⟨hloop.main, hloop.exact, hloop.wildcard⟩
  · unfold Holds
    rw [lookup_unregister]
    by_cases hid : id = clientId <;> simp [hid]

theorem subscribe_spec (ha : registry.Aligned)
    (hafter : registry.subscribe clientId subjects = .ok after) :
    after.Aligned
      ∧ (∀ s, s ∈ after.subscriptions
        ↔ s ∈ subjects ∨ s ∈ registry.subscriptions)
      ∧ ∀ id s, after.Holds id s
        ↔ (s ∈ subjects ∧ id = clientId) ∨ registry.Holds id s := by
  unfold ClientRegistry.subscribe at hafter
  cases hc : registry.clients.lookup clientId with
  | none =>
      rw [hc] at hafter
      cases hafter
  | some client =>
      rw [hc] at hafter
      obtain rfl := Except.ok.inj hafter
      have hreg : (registry.clients.lookup clientId).isSome = true := by
        rw [hc]
        rfl
      clear hafter hc
      induction subjects generalizing registry with
      | nil => simp [ha]
      | cons subject subjects ih =>
          obtain ⟨haligned, hmain, hholds⟩ :=
            ih ha.subscribeTo (registered_subscribeTo hreg)
          refine ⟨haligned, fun s => ?_, fun id s => ?_⟩
          · rw [List.foldl_cons, hmain, mem_subscribeTo, List.mem_cons]
            tauto
          · rw [List.foldl_cons, hholds, holds_subscribeTo hreg,
              List.mem_cons]
            tauto

end Steps

-- ======================================================= what is forgotten

section Forgotten

variable {registry after : ClientRegistry}

theorem Indexed.mem_of_held (hi : registry.Indexed) {s : String}
    (h : registry.Held s) : s ∈ registry.subscriptions := by
  obtain ⟨id, hid⟩ := h
  exact ((hi.main s id).2 hid).mem

/-- A pattern with a holder has a subscriber in its entry. -/
theorem Indexed.subscriber (hi : registry.Indexed)
    {e : String × HashSet ClientId} (he : e ∈ registry.wildcardPatterns)
    (hw : isWildcardPattern e.1 = true) (h : registry.Held e.1) :
    ∃ id, id ∈ e.2 := by
  obtain ⟨id, hid⟩ := h
  obtain ⟨e', he', hname, hmem⟩ := (hi.wildcard e.1 id).2 ⟨hw, hid⟩
  obtain rfl := List.inj_on_of_nodup_map hi.names he' he hname
  exact ⟨id, hmem⟩

/-- The registry has forgotten what nobody holds when no key is left
without a holder. -/
theorem forgotten_iff (hi : registry.Indexed) (ha : registry.Aligned) :
    registry.Forgotten ↔ ∀ s ∈ registry.subscriptions, registry.Held s := by
  have hkeys := HashMap.ncard_keys registry.subscriptions
  have hsub : {s | registry.Held s} ⊆ {s | s ∈ registry.subscriptions} :=
    fun s hs => hi.mem_of_held hs
  refine ⟨fun h s hs => ?_, fun h => ⟨?_, fun e he => ?_, fun hnone => ?_⟩⟩
  · have hfinite : {s | s ∈ registry.subscriptions}.Finite :=
      registry.subscriptions.keys.finite_toSet
    have hle : Set.ncard {s | s ∈ registry.subscriptions}
        ≤ Set.ncard {s | registry.Held s} := by
      rw [hkeys, ← h.count]
      exact le_rfl
    have heq := Set.eq_of_subset_of_ncard_le hsub hle hfinite
    rw [Set.ext_iff] at heq
    exact (heq s).2 hs
  · have heq : {s | registry.Held s} = {s | s ∈ registry.subscriptions} :=
      Set.Subset.antisymm hsub h
    rw [heq, hkeys]
    rfl
  · obtain ⟨hw, hs⟩ := (ha.wildcard e.1).1
      (List.mem_map_of_mem (f := Prod.fst) he)
    exact hi.subscriber he hw (h e.1 hs)
  · -- nobody is left to hold a key
    have hmain : ∀ s, s ∉ registry.subscriptions := by
      intro s hs
      obtain ⟨id, client, hc, -⟩ := h s hs
      rw [hnone] at hc
      cases hc
    have hnil : ∀ m : HashMap String (HashSet ClientId),
        (∀ s, s ∉ m) → m = ∅ := fun m hm =>
      AList.ext (HashMap.entries_eq_nil_iff.2 fun s =>
        AList.lookup_eq_none.2 (hm s))
    have hpatterns : registry.wildcardPatterns = [] := by
      refine List.eq_nil_iff_forall_not_mem.2 fun e he => ?_
      exact hmain e.1 ((ha.wildcard e.1).1
        (List.mem_map_of_mem (f := Prod.fst) he)).2
    have hsubs := hnil _ hmain
    have hexact := hnil registry.exactSubscriptions fun s hs =>
      hmain s ((ha.exact s).1 hs).2
    obtain ⟨clients, subscriptions, exact, patterns⟩ := registry
    cases hnone
    cases hsubs
    cases hexact
    cases hpatterns
    rfl

/-- Where a call opens no entry and takes the holdings `G` of a client,
no key is left behind when each has another holder. -/
theorem held_iff_of_taken {clientId : ClientId} {G : String → Prop}
    (hi : registry.Indexed)
    (h : ∀ s ∈ registry.subscriptions, registry.Held s)
    (hsame : SameEntries registry after)
    (hholds : ∀ id s, after.Holds id s
      ↔ ¬(G s ∧ id = clientId) ∧ registry.Holds id s) :
    (∀ s ∈ after.subscriptions, after.Held s)
      ↔ ∀ s, G s → registry.Holds clientId s →
        ∃ id, id ≠ clientId ∧ registry.Holds id s := by
  refine ⟨fun hafter s hgone hs => ?_, fun hspares s hs => ?_⟩
  · obtain ⟨id, hid⟩ := hafter s
      ((hsame.main s).2 (hi.mem_of_held ⟨clientId, hs⟩))
    rw [hholds] at hid
    exact ⟨id, fun he => hid.1 ⟨hgone, he⟩, hid.2⟩
  · obtain ⟨id, hid⟩ := h s ((hsame.main s).1 hs)
    by_cases htaken : G s ∧ id = clientId
    · obtain ⟨hgone, rfl⟩ := htaken
      obtain ⟨id', hne, hid'⟩ := hspares s hgone hid
      exact ⟨id', (hholds id' s).2 ⟨fun hc => hne hc.2, hid'⟩⟩
    · exact ⟨id, (hholds id s).2 ⟨htaken, hid⟩⟩

/-- The indexes are in order, whatever was forgotten. -/
structure InOrder (registry : ClientRegistry) : Prop where
  indexed : registry.Indexed
  aligned : registry.Aligned

theorem inOrder_act {call : RegistryCall} (h : registry.InOrder)
    (hact : registry.act call = some after) : after.InOrder := by
  obtain ⟨hi, ha⟩ := h
  cases call with
  | register clientId now =>
      obtain ⟨hfresh, rfl⟩ := act_register hact
      exact ⟨hi.register now hfresh, ⟨ha.exact, ha.wildcard⟩⟩
  | subscribe clientId subjects =>
      have hafter := ok_of_toOption hact
      exact ⟨hi.subscribe hafter, (subscribe_spec ha hafter).1⟩
  | unsubscribe clientId subjects =>
      have hafter := ok_of_toOption hact
      exact ⟨hi.unsubscribe hafter, (unsubscribe_spec hafter).1.aligned ha⟩
  | unregister clientId =>
      obtain rfl := Option.some.inj hact
      exact ⟨hi.unregister clientId,
        (unregister_spec registry clientId).1.aligned ha⟩

/-- A call leaves no key without a holder exactly when it takes no subject
from its last one. -/
theorem forgotten_act {call : RegistryCall} (h : registry.InOrder)
    (hact : registry.act call = some after) (hf : registry.Forgotten) :
    after.Forgotten ↔ registry.Spares call := by
  have hafter := inOrder_act h hact
  obtain ⟨hi, ha⟩ := h
  rw [forgotten_iff hi ha] at hf
  rw [forgotten_iff hafter.indexed hafter.aligned]
  cases call with
  | register clientId now =>
      obtain ⟨hfresh, rfl⟩ := act_register hact
      refine iff_of_true (fun s hs => ?_) trivial
      obtain ⟨id, hid⟩ := hf s hs
      exact ⟨id, (holds_register now hfresh).2 hid⟩
  | subscribe clientId subjects =>
      obtain ⟨-, hmain, hholds⟩ :=
        subscribe_spec ha (ok_of_toOption hact)
      refine iff_of_true (fun s hs => ?_) trivial
      rcases (hmain s).1 hs with hnew | hold
      · exact ⟨clientId, (hholds clientId s).2 (Or.inl ⟨hnew, rfl⟩)⟩
      · obtain ⟨id, hid⟩ := hf s hold
        exact ⟨id, (hholds id s).2 (Or.inr hid)⟩
  | unsubscribe clientId subjects =>
      obtain ⟨hsame, hholds⟩ := unsubscribe_spec
        (ok_of_toOption hact)
      exact held_iff_of_taken hi hf hsame hholds
  | unregister clientId =>
      obtain rfl := Option.some.inj hact
      obtain ⟨hsame, hholds⟩ := unregister_spec registry clientId
      rw [held_iff_of_taken (G := fun _ => True) hi hf hsame
        fun id s => by rw [hholds, true_and]]
      simp [Spares]

end Forgotten

-- ================================================================ the runs

/-- In every run whose calls take no subject from its last holder the
registry forgets what nobody holds; the first call that does leaves an
entry behind. -/
theorem forgotten_of_reached {registry : ClientRegistry}
    (hrun : Reached act Spares new registry) :
    registry.Forgotten
      ∧ ∀ call after, registry.act call = some after →
        (after.Forgotten ↔ registry.Spares call) := by
  have hall : registry.InOrder ∧ registry.Forgotten := by
    induction hrun with
    | start =>
        have horder : new.InOrder := ⟨indexed_new, aligned_new⟩
        refine ⟨horder, (forgotten_iff horder.1 horder.2).2 fun s hs => ?_⟩
        exact absurd hs (AList.notMem_empty s)
    | step _ hspares hact ih =>
        exact ⟨inOrder_act ih.1 hact,
          (forgotten_act ih.1 hact ih.2).2 hspares⟩
  exact ⟨hall.2, fun call after hact => forgotten_act hall.1 hact hall.2⟩

/-- A pattern of two clients that one of them gives up. -/
theorem forgotten_second_holder :
    ∃ registry, Reached act Spares new registry
      ∧ registry.subscriptionCount = 1
      ∧ registry.Forgotten
      ∧ ∀ call after, registry.act call = some after →
        (after.Forgotten ↔ registry.Spares call) := by
  have hcalls : ∃ r₁ r₂ r₃ r₄ r₅,
      new.act (.register 1 0) = some r₁
        ∧ r₁.act (.register 2 0) = some r₂
        ∧ r₂.act (.subscribe 1 ["m.*"]) = some r₃
        ∧ r₃.act (.subscribe 2 ["m.*"]) = some r₄
        ∧ r₄.act (.unsubscribe 1 ["m.*"]) = some r₅
        ∧ r₄.Holds 2 "m.*" ∧ r₅.subscriptionCount = 1 :=
    ⟨_, _, _, _, _, rfl, rfl, rfl, rfl, rfl, by decide +kernel,
      by decide +kernel⟩
  obtain ⟨r₁, r₂, r₃, r₄, r₅, h₁, h₂, h₃, h₄, h₅, hholds, hcount⟩ := hcalls
  have hspares : r₄.Spares (.unsubscribe 1 ["m.*"]) := by
    intro s hs _
    obtain rfl := List.mem_singleton.1 hs
    exact ⟨2, by decide, hholds⟩
  have hopen : ∀ r id now, Spares r (.register id now) :=
    fun _ _ _ => trivial
  have hsub : ∀ r id subjects, Spares r (.subscribe id subjects) :=
    fun _ _ _ => trivial
  have hrun : Reached act Spares new r₅ :=
    .step (.step (.step (.step (.step .start (hopen _ _ _) h₁)
      (hopen _ _ _) h₂) (hsub _ _ _) h₃) (hsub _ _ _) h₄) hspares h₅
  exact ⟨r₅, hrun, hcount, forgotten_of_reached hrun⟩

/-- The only client leaves, and its pattern is still counted and still
scanned. -/
theorem pattern_left_behind :
    ¬ ∀ registry, Reached act (fun _ _ => True) new registry →
      registry.Forgotten := by
  have hleft : ∃ registry, Reached act (fun _ _ => True) new registry
      ∧ registry.clients.entries = [] ∧ registry.subscriptionCount = 1
      ∧ registry.wildcardPatterns = [("m.*", .empty)] :=
    Runs.exists_reached
      [.register 1 0, .subscribe 1 ["m.*"], .unregister 1]
      (by decide +kernel)
  intro h
  obtain ⟨registry, hrun, -, -, hpatterns⟩ := hleft
  obtain ⟨id, hid⟩ := (h registry hrun).wildcard ("m.*", .empty) (by
    rw [hpatterns]
    exact List.mem_singleton_self _)
  exact HashSet.not_mem_empty id hid

end ClientRegistry

end Wup.Gateway
