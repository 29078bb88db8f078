/-
What a refused request has changed.

`handleClientMessage` refuses a subscription or an unsubscription at three
points: a subject is invalid, the client is not registered, or the
confirmation finds the client's channel full. The first two come before
the registry is touched. The third comes after, and the update stays. (A
channel whose writer has ended refuses as a full one does.)

So a refused request has changed nothing exactly when it was refused early
or there was nothing to change: the client was filed under every subject
of a subscription already (`FiledEverywhere`), or under none of an
unsubscription (`FiledNowhere`). Adding a subscription only files more and
removing one only files less, so what the loop over the subjects changed
shows in its last state.
-/
import Wup.Gateway.Proofs.Streams

namespace Wup.Gateway

-- =============================================================== one entry

/-- The clients of the first entry of a pattern. -/
def patternClients (pattern : String)
    (patterns : List (String × HashSet ClientId)) : HashSet ClientId :=
  ((patterns.find? fun e => e.1 = pattern).map (·.2)).getD .empty

section Patterns

variable {patterns : List (String × HashSet ClientId)}
  {pattern s : String} {clientId : ClientId}

theorem patternClients_cons {e : String × HashSet ClientId} :
    patternClients s (e :: patterns)
      = if e.1 = s then e.2 else patternClients s patterns := by
  unfold patternClients
  by_cases he : e.1 = s
  · rw [if_pos he, List.find?_cons_of_pos (by simpa using he)]
    rfl
  · rw [if_neg he, List.find?_cons_of_neg (by simpa using he)]

/-- The entry of the pattern comes first and is changed. -/
private theorem patternClients_change
    (g : HashSet ClientId → HashSet ClientId)
    {e : String × HashSet ClientId} (he : e.1 = pattern) :
    patternClients s ((e.1, g e.2) :: patterns)
      = if s = pattern then g (patternClients s (e :: patterns))
        else patternClients s (e :: patterns) := by
  rw [patternClients_cons, patternClients_cons]
  by_cases hs : s = pattern
  · simp [hs, he]
  · have hes : e.1 ≠ s := fun h => hs (h.symm.trans he)
    rw [if_neg hes, if_neg hs, if_neg hes]

/-- Another entry comes first, and the change is in the rest. -/
private theorem patternClients_pass
    (g : HashSet ClientId → HashSet ClientId)
    {e : String × HashSet ClientId}
    {patterns' : List (String × HashSet ClientId)} (he : e.1 ≠ pattern)
    (h : patternClients s patterns'
      = if s = pattern then g (patternClients s patterns)
        else patternClients s patterns) :
    patternClients s (e :: patterns')
      = if s = pattern then g (patternClients s (e :: patterns))
        else patternClients s (e :: patterns) := by
  rw [patternClients_cons, h, patternClients_cons]
  by_cases hes : e.1 = s
  · have hs : s ≠ pattern := fun h => he (hes.trans h)
    rw [if_pos hes, if_neg hs, if_pos hes]
  · rw [if_neg hes, if_neg hes]

theorem patternClients_addToPattern :
    patternClients s (addToPattern pattern clientId patterns)
      = if s = pattern then (patternClients s patterns).insert clientId
        else patternClients s patterns := by
  induction patterns with
  | nil =>
      rw [addToPattern, patternClients_cons]
      by_cases hs : s = pattern
      · rw [if_pos hs, if_pos hs.symm]
        rfl
      · rw [if_neg hs, if_neg (Ne.symm hs)]
  | cons e patterns ih =>
      rw [addToPattern]
      by_cases he : e.1 = pattern
      · rw [if_pos he]
        exact patternClients_change (·.insert clientId) he
      · rw [if_neg he]
        exact patternClients_pass (·.insert clientId) he ih

theorem patternClients_removeFromPattern :
    patternClients s (removeFromPattern pattern clientId patterns)
      = if s = pattern then (patternClients s patterns).remove clientId
        else patternClients s patterns := by
  induction patterns with
  | nil =>
      show patternClients s [] = _
      split
      · rfl
      · rfl
  | cons e patterns ih =>
      rw [removeFromPattern]
      by_cases he : e.1 = pattern
      · rw [if_pos he]
        exact patternClients_change (·.remove clientId) he
      · rw [if_neg he]
        exact patternClients_pass (·.remove clientId) he ih

/-- A client that is in the first entry is not added again. -/
theorem addToPattern_of_mem
    (h : clientId ∈ patternClients pattern patterns) :
    addToPattern pattern clientId patterns = patterns := by
  induction patterns with
  | nil => exact absurd h (HashSet.not_mem_empty _)
  | cons e patterns ih =>
      rw [patternClients_cons] at h
      rw [addToPattern]
      split at h
      · next he => rw [if_pos he, HashSet.insert_of_mem h]
      · next he => rw [if_neg he, ih h]

/-- A client that is not in the first entry is not removed. -/
theorem removeFromPattern_of_not_mem
    (h : ¬ clientId ∈ patternClients pattern patterns) :
    removeFromPattern pattern clientId patterns = patterns := by
  induction patterns with
  | nil => rfl
  | cons e patterns ih =>
      rw [patternClients_cons] at h
      rw [removeFromPattern]
      split at h
      · next he => rw [if_pos he, HashSet.remove_of_not_mem h]
      · next he => rw [if_neg he, ih h]

end Patterns

namespace ClientRegistry

-- ================================================================ contents

/-- The same registry, but for the order its maps are iterated in. -/
structure SameContent (before after : ClientRegistry) : Prop where
  clients : ∀ id, after.clients.lookup id = before.clients.lookup id
  subscriptions : ∀ s,
    after.subscriptions.lookup s = before.subscriptions.lookup s
  exact : ∀ s,
    after.exactSubscriptions.lookup s = before.exactSubscriptions.lookup s
  wildcard : after.wildcardPatterns = before.wildcardPatterns

/-- The client holds the subject and is filed under it. -/
structure FiledEverywhere (registry : ClientRegistry) (clientId : ClientId)
    (subject : String) : Prop where
  holds : registry.Holds clientId subject
  main : registry.subscriptions.Filed subject clientId
  exact : isWildcardPattern subject = false →
    registry.exactSubscriptions.Filed subject clientId
  wildcard : isWildcardPattern subject = true →
    clientId ∈ patternClients subject registry.wildcardPatterns

/-- The client neither holds the subject nor is filed under it. -/
structure FiledNowhere (registry : ClientRegistry) (clientId : ClientId)
    (subject : String) : Prop where
  holds : ¬ registry.Holds clientId subject
  main : ¬ registry.subscriptions.Filed subject clientId
  exact : isWildcardPattern subject = false →
    ¬ registry.exactSubscriptions.Filed subject clientId
  wildcard : isWildcardPattern subject = true →
    ¬ clientId ∈ patternClients subject registry.wildcardPatterns

section Contents

variable {r₁ r₂ r₃ : ClientRegistry} {clientId : ClientId} {s : String}

theorem SameContent.refl (r : ClientRegistry) : SameContent r r :=
  ⟨fun _ => rfl, fun _ => rfl, fun _ => rfl, rfl⟩

theorem SameContent.symm (h : SameContent r₁ r₂) : SameContent r₂ r₁ :=
  ⟨fun id => (h.clients id).symm, fun s => (h.subscriptions s).symm,
    fun s => (h.exact s).symm, h.wildcard.symm⟩

theorem SameContent.trans (h : SameContent r₁ r₂)
    (h' : SameContent r₂ r₃) : SameContent r₁ r₃ :=
  ⟨fun id => (h'.clients id).trans (h.clients id),
    fun s => (h'.subscriptions s).trans (h.subscriptions s),
    fun s => (h'.exact s).trans (h.exact s), h'.wildcard.trans h.wildcard⟩

theorem SameContent.holds (h : SameContent r₁ r₂) :
    r₂.Holds clientId s ↔ r₁.Holds clientId s := by
  unfold Holds
  rw [h.clients]

theorem SameContent.main (h : SameContent r₁ r₂) :
    r₂.subscriptions.Filed s clientId
      ↔ r₁.subscriptions.Filed s clientId := by
  rw [HashMap.filed_iff_getD, HashMap.filed_iff_getD, h.subscriptions]

theorem SameContent.exactFiled (h : SameContent r₁ r₂) :
    r₂.exactSubscriptions.Filed s clientId
      ↔ r₁.exactSubscriptions.Filed s clientId := by
  rw [HashMap.filed_iff_getD, HashMap.filed_iff_getD, h.exact]

theorem SameContent.filedEverywhere (h : SameContent r₁ r₂)
    (hf : r₁.FiledEverywhere clientId s) :
    r₂.FiledEverywhere clientId s :=
  ⟨h.holds.2 hf.holds, h.main.2 hf.main,
    fun hw => h.exactFiled.2 (hf.exact hw),
    fun hw => h.wildcard ▸ hf.wildcard hw⟩

theorem SameContent.filedNowhere (h : SameContent r₁ r₂)
    (hf : r₁.FiledNowhere clientId s) : r₂.FiledNowhere clientId s :=
  ⟨fun hn => hf.holds (h.holds.1 hn), fun hn => hf.main (h.main.1 hn),
    fun hw hn => hf.exact hw (h.exactFiled.1 hn),
    fun hw => h.wildcard ▸ hf.wildcard hw⟩

end Contents

-- ============================================================= one subject

section Subject

variable {registry : ClientRegistry} {clientId : ClientId}
  {subject s : String}

/-- A change of one client's state that is none. -/
theorem lookup_modifyClient_id {f : ClientState → ClientState}
    (hf : ∀ c, registry.clients.lookup clientId = some c → f c = c)
    (id : ClientId) :
    (registry.modifyClient clientId f).clients.lookup id
      = registry.clients.lookup id := by
  rw [lookup_modifyClient]
  split
  · next hid =>
      rw [hid]
      cases hc : registry.clients.lookup clientId with
      | none => rfl
      | some c => exact congrArg some (hf c hc)
  · rfl

/-- Where the client is filed already, nothing changes. -/
theorem sameContent_subscribeTo
    (h : registry.FiledEverywhere clientId subject) :
    SameContent registry (subscribeTo clientId registry subject) := by
  rw [subscribeTo_eq]
  refine ⟨lookup_modifyClient_id fun c hc => ?_,
    HashMap.lookup_file_of_filed h.main, fun s => ?_, ?_⟩
  · obtain ⟨c', hc', hmem⟩ := h.holds
    rw [hc] at hc'
    cases hc'
    rw [HashSet.insert_of_mem hmem]
  · show (if _ then _ else _ : HashMap String _).lookup s = _
    cases hw : isWildcardPattern subject with
    | true => rw [if_pos rfl]
    | false =>
        rw [if_neg Bool.false_ne_true]
        exact HashMap.lookup_file_of_filed (h.exact hw) s
  · show (if _ then _ else _) = _
    cases hw : isWildcardPattern subject with
    | true => rw [if_pos rfl, addToPattern_of_mem (h.wildcard hw)]
    | false => rw [if_neg Bool.false_ne_true]

/-- Where the client is not filed, nothing changes. -/
theorem sameContent_unsubscribeFrom
    (h : registry.FiledNowhere clientId subject) :
    SameContent registry (unsubscribeFrom clientId registry subject) := by
  rw [unsubscribeFrom_eq]
  refine ⟨lookup_modifyClient_id fun c hc => ?_,
    HashMap.lookup_unfile_of_not_filed h.main, fun s => ?_, ?_⟩
  · have hmem : ¬ subject ∈ c.subscriptions :=
      fun hmem => h.holds ⟨c, hc, hmem⟩
    rw [HashSet.remove_of_not_mem hmem]
  · show (if _ then _ else _ : HashMap String _).lookup s = _
    cases hw : isWildcardPattern subject with
    | true => rw [if_pos rfl]
    | false =>
        rw [if_neg Bool.false_ne_true]
        exact HashMap.lookup_unfile_of_not_filed (h.exact hw) s
  · show (if _ then _ else _) = _
    cases hw : isWildcardPattern subject with
    | true =>
        rw [if_pos rfl, removeFromPattern_of_not_mem (h.wildcard hw)]
    | false => rw [if_neg Bool.false_ne_true]

/-- A client is filed under what it subscribes to, and stays filed under
the rest. -/
theorem filedEverywhere_subscribeTo
    (hreg : (registry.clients.lookup clientId).isSome = true)
    (h : s = subject ∨ registry.FiledEverywhere clientId s) :
    (subscribeTo clientId registry subject).FiledEverywhere clientId s := by
  refine ⟨(holds_subscribeTo hreg).2 (h.imp (⟨·, rfl⟩) (·.holds)), ?_,
    fun hw => ?_, fun hw => ?_⟩
  · rw [subscribeTo_eq]
    exact HashMap.filed_file.2 (h.imp (⟨·, rfl⟩) (·.main))
  · rw [subscribeTo_eq]
    show HashMap.Filed (if _ then _ else _) s clientId
    split
    · next hws =>
        rcases h with rfl | h
        · rw [hw] at hws
          cases hws
        · exact h.exact hw
    · exact HashMap.filed_file.2 (h.imp (⟨·, rfl⟩) (·.exact hw))
  · rw [subscribeTo_eq]
    show clientId ∈ patternClients s (if _ then _ else _)
    split
    · rw [patternClients_addToPattern]
      split
      · exact HashSet.mem_insert.2 (Or.inl rfl)
      · next hs => exact (h.resolve_left hs).wildcard hw
    · next hws =>
        rcases h with rfl | h
        · exact absurd hw hws
        · exact h.wildcard hw

/-- A client is filed nowhere under what it gives up, nor anew under the
rest. -/
theorem filedNowhere_unsubscribeFrom
    (h : s = subject ∨ registry.FiledNowhere clientId s) :
    (unsubscribeFrom clientId registry subject).FiledNowhere clientId
      s := by
  refine ⟨fun hn => ?_, fun hn => ?_, fun hw hn => ?_, fun hw hn => ?_⟩
  · obtain ⟨hne, hn⟩ := holds_unsubscribeFrom.1 hn
    exact (h.resolve_left fun hs => hne ⟨hs, rfl⟩).holds hn
  · rw [unsubscribeFrom_eq] at hn
    obtain ⟨hne, hn⟩ := HashMap.filed_unfile.1 hn
    exact (h.resolve_left fun hs => hne ⟨hs, rfl⟩).main hn
  · rw [unsubscribeFrom_eq] at hn
    change HashMap.Filed (if _ then _ else _) s clientId at hn
    split at hn
    · next hws =>
        rcases h with rfl | h
        · rw [hw] at hws
          cases hws
        · exact h.exact hw hn
    · obtain ⟨hne, hn⟩ := HashMap.filed_unfile.1 hn
      exact (h.resolve_left fun hs => hne ⟨hs, rfl⟩).exact hw hn
  · rw [unsubscribeFrom_eq] at hn
    change clientId ∈ patternClients s (if _ then _ else _) at hn
    split at hn
    · rw [patternClients_removeFromPattern] at hn
      split at hn
      · exact (HashSet.mem_remove.1 hn).1 rfl
      · next hs => exact (h.resolve_left hs).wildcard hw hn
    · next hws =>
        rcases h with rfl | h
        · exact hws hw
        · exact h.wildcard hw hn

end Subject

-- ================================================================ the loop

/-- A loop whose every round establishes its own `P` and keeps the others:
it changes nothing exactly when all of them held before. -/
theorem sameContent_foldl_iff
    {f : ClientRegistry → String → ClientRegistry}
    {R : ClientRegistry → Prop} {P : ClientRegistry → String → Prop}
    (hR : ∀ r s, R r → R (f r s))
    (hkeep : ∀ r s s', R r → s' = s ∨ P r s' → P (f r s) s')
    (hsame : ∀ r s, P r s → SameContent r (f r s))
    (htransfer : ∀ r r' s, SameContent r r' → P r s → P r' s)
    {registry : ClientRegistry} (hr : R registry) (subjects : List String) :
    R (subjects.foldl f registry)
      ∧ (SameContent registry (subjects.foldl f registry)
        ↔ ∀ s ∈ subjects, P registry s) := by
  have hlast : ∀ (subjects : List String) (r : ClientRegistry), R r →
      R (subjects.foldl f r)
        ∧ ∀ s, s ∈ subjects ∨ P r s → P (subjects.foldl f r) s := by
    intro subjects
    induction subjects with
    | nil => exact fun r hr => ⟨hr, fun s hs => hs.resolve_left (by simp)⟩
    | cons s subjects ih =>
        intro r hr
        obtain ⟨hR', hP'⟩ := ih (f r s) (hR r s hr)
        refine ⟨hR', fun s' hs' => hP' s' ?_⟩
        rw [List.mem_cons, or_assoc, or_left_comm] at hs'
        exact hs'.imp_right (hkeep r s s' hr)
  refine ⟨(hlast subjects registry hr).1, fun h s hs => ?_, fun h => ?_⟩
  · exact htransfer _ _ s h.symm
      ((hlast subjects registry hr).2 s (Or.inl hs))
  · clear hlast
    induction subjects generalizing registry with
    | nil => exact SameContent.refl registry
    | cons s subjects ih =>
        have hone := hsame registry s (h s (List.mem_cons_self ..))
        refine hone.trans (ih (hR registry s hr) fun s' hs' => ?_)
        exact htransfer _ _ s' hone (h s' (List.mem_cons_of_mem _ hs'))

section Request

variable {registry updated : ClientRegistry} {clientId : ClientId}
  {client : ClientState}

theorem subscribe_loop {tx : List Message}
    (h : registry.waiting clientId = some tx) (subjects : List String) :
    (subjects.foldl (subscribeTo clientId) registry).waiting clientId
        = some tx
      ∧ (SameContent registry
          (subjects.foldl (subscribeTo clientId) registry)
        ↔ ∀ s ∈ subjects, registry.FiledEverywhere clientId s) := by
  refine sameContent_foldl_iff (R := fun r => r.waiting clientId = some tx)
    (P := fun r s => r.FiledEverywhere clientId s) (fun _ s hr => ?_)
    (fun _ _ _ hr => ?_) (fun _ _ => sameContent_subscribeTo)
    (fun _ _ _ hsame => hsame.filedEverywhere) h subjects
  · exact (waiting_subscribeTo s).trans hr
  · obtain ⟨client, hc, -⟩ := Option.map_eq_some_iff.1 hr
    refine filedEverywhere_subscribeTo ?_
    rw [hc]
    rfl

theorem unsubscribe_loop {tx : List Message}
    (h : registry.waiting clientId = some tx) (subjects : List String) :
    (subjects.foldl (unsubscribeFrom clientId) registry).waiting clientId
        = some tx
      ∧ (SameContent registry
          (subjects.foldl (unsubscribeFrom clientId) registry)
        ↔ ∀ s ∈ subjects, registry.FiledNowhere clientId s) :=
  sameContent_foldl_iff (R := fun r => r.waiting clientId = some tx)
    (P := fun r s => r.FiledNowhere clientId s)
    (fun _ s hr => (waiting_unsubscribeFrom s).trans hr)
    (fun _ _ _ _ => filedNowhere_unsubscribeFrom)
    (fun _ _ => sameContent_unsubscribeFrom)
    (fun _ _ _ hsame => hsame.filedNowhere) h subjects

-- ============================================================= the request

/-- The client's channel takes one more message, if it has one. -/
def CanConfirm (registry : ClientRegistry) (clientId : ClientId) : Prop :=
  ∀ client ∈ registry.clients.lookup clientId, client.HasRoom

/-- If the request is refused, it has changed nothing. -/
def RefusedUnchanged (registry : ClientRegistry) (clientId : ClientId)
    (now : Int) (msg : ClientMessage) : Prop :=
  ∀ e, (handleClientMessage registry clientId now msg).2 = .error e →
    SameContent registry (handleClientMessage registry clientId now msg).1

/-- The confirmation goes out, or the update stays without one. -/
theorem confirm_iff {client : ClientState}
    (hw : updated.waiting clientId = some client.tx) (msg : ServerMessage)
    (subjects : List String) :
    (∀ e, ((updated.send clientId msg).2.map fun _ => subjects) = .error e →
        SameContent registry (updated.send clientId msg).1)
      ↔ client.HasRoom ∨ SameContent registry updated := by
  obtain ⟨client', hc, htx⟩ := Option.map_eq_some_iff.1 hw
  have hiff : client'.HasRoom ↔ client.HasRoom := by
    unfold ClientState.HasRoom
    rw [htx]
  rw [← hiff]
  have hwaiting : updated.waiting clientId = some client'.tx := by
    rw [waiting, hc]
    rfl
  by_cases hroom : client'.HasRoom
  · rw [(send_of_room msg hwaiting hroom).1]
    exact iff_of_true (fun e he => nomatch he) (Or.inl hroom)
  · have hfull : updated.Full clientId client'.tx :=
      ⟨hwaiting, Nat.le_of_not_lt hroom⟩
    have hdropped : ∀ m, client'.trySendRaw m = (client', false) :=
      fun m => if_neg hroom
    have hsame : SameContent updated (updated.send clientId msg).1 := by
      refine ⟨lookup_modifyClient_id fun c hc' => ?_, fun s => ?_,
        fun s => ?_, modifyClient_wildcardPatterns _⟩
      · rw [hc] at hc'
        cases hc'
        rw [hdropped]
      · exact congrArg (AList.lookup s) (modifyClient_subscriptions _)
      · exact congrArg (AList.lookup s) (modifyClient_exactSubscriptions _)
    rw [hfull.send_self]
    refine ⟨fun h => Or.inr ((h _ rfl).trans hsame.symm), fun h e _ => ?_⟩
    exact (h.resolve_left hroom).trans hsame

section Outcomes

variable (now : Int) {subjects : List String}

theorem refusedUnchanged_invalid {error : String}
    (hv : subjects.findSome? validatePattern = some error) :
    registry.RefusedUnchanged clientId now (.subscribe subjects) := by
  intro e _
  simp only [handleClientMessage, hv]
  exact SameContent.refl registry

theorem refusedUnchanged_subscribe_unknown
    (hv : subjects.findSome? validatePattern = none)
    (hc : registry.clients.lookup clientId = none) :
    registry.RefusedUnchanged clientId now (.subscribe subjects) := by
  intro e _
  simp only [handleClientMessage, hv, subscribe, hc]
  exact SameContent.refl registry

theorem refusedUnchanged_unsubscribe_unknown
    (hc : registry.clients.lookup clientId = none) :
    registry.RefusedUnchanged clientId now (.unsubscribe subjects) := by
  intro e _
  simp only [handleClientMessage, unsubscribe, hc]
  exact SameContent.refl registry

theorem refusedUnchanged_subscribe {client : ClientState}
    (hv : subjects.findSome? validatePattern = none)
    (hc : registry.clients.lookup clientId = some client) :
    registry.RefusedUnchanged clientId now (.subscribe subjects)
      ↔ client.HasRoom
        ∨ ∀ s ∈ subjects, registry.FiledEverywhere clientId s := by
  have hw : registry.waiting clientId = some client.tx := by
    rw [waiting, hc]
    rfl
  obtain ⟨hwaiting, hsame⟩ := subscribe_loop hw subjects
  unfold RefusedUnchanged
  simp only [handleClientMessage, hv, subscribe, hc]
  rw [confirm_iff hwaiting, hsame]

theorem refusedUnchanged_unsubscribe {client : ClientState}
    (hc : registry.clients.lookup clientId = some client) :
    registry.RefusedUnchanged clientId now (.unsubscribe subjects)
      ↔ client.HasRoom
        ∨ ∀ s ∈ subjects, registry.FiledNowhere clientId s := by
  have hw : registry.waiting clientId = some client.tx := by
    rw [waiting, hc]
    rfl
  obtain ⟨hwaiting, hsame⟩ := unsubscribe_loop hw subjects
  unfold RefusedUnchanged
  simp only [handleClientMessage, unsubscribe, hc]
  rw [confirm_iff hwaiting, hsame]

end Outcomes

/-- A refused request has changed nothing exactly when it was refused
before the update, or can be confirmed, or asks for what is so already. -/
theorem refusedUnchanged_iff (registry : ClientRegistry)
    (clientId : ClientId) (now : Int) (subjects : List String) :
    (registry.RefusedUnchanged clientId now (.subscribe subjects)
      ↔ (∃ s ∈ subjects, (validatePattern s).isSome)
        ∨ registry.CanConfirm clientId
        ∨ ∀ s ∈ subjects, registry.FiledEverywhere clientId s)
    ∧ (registry.RefusedUnchanged clientId now (.unsubscribe subjects)
      ↔ registry.CanConfirm clientId
        ∨ ∀ s ∈ subjects, registry.FiledNowhere clientId s) := by
  have hroom : ∀ client, registry.clients.lookup clientId = some client →
      (registry.CanConfirm clientId ↔ client.HasRoom) := by
    intro client hc
    unfold CanConfirm
    rw [hc]
    simp
  have hunknown : registry.clients.lookup clientId = none →
      registry.CanConfirm clientId := by
    intro hc client hclient
    rw [hc] at hclient
    cases hclient
  constructor
  · cases hv : subjects.findSome? validatePattern with
    | some error =>
        obtain ⟨s, hs, hsome⟩ := List.exists_of_findSome?_eq_some hv
        refine iff_of_true (refusedUnchanged_invalid now hv)
          (Or.inl ⟨s, hs, ?_⟩)
        rw [hsome]
        rfl
    | none =>
        have hvalid : ¬ ∃ s ∈ subjects, (validatePattern s).isSome := by
          rintro ⟨s, hs, hsome⟩
          rw [List.findSome?_eq_none_iff.1 hv s hs] at hsome
          cases hsome
        rw [or_iff_right hvalid]
        cases hc : registry.clients.lookup clientId with
        | none =>
            exact iff_of_true (refusedUnchanged_subscribe_unknown now hv hc)
              (Or.inl (hunknown hc))
        | some client =>
            rw [hroom client hc]
            exact refusedUnchanged_subscribe now hv hc
  · cases hc : registry.clients.lookup clientId with
    | none =>
        exact iff_of_true (refusedUnchanged_unsubscribe_unknown now hc)
          (Or.inl (hunknown hc))
    | some client =>
        rw [hroom client hc]
        exact refusedUnchanged_unsubscribe now hc

end Request

/-- A client whose channel has no room asks for one more asset: it is
refused, and subscribed. -/
theorem refused_and_subscribed :
    ¬ ∀ (registry : ClientRegistry) (clientId : ClientId) (now : Int)
      (subjects : List String),
      registry.RefusedUnchanged clientId now (.subscribe subjects) := by
  let registry := new.register
    { ClientState.new 1 0 with tx := List.replicate 1000 .ping }
  have hrefused : (handleClientMessage registry 1 0
      (.subscribe ["m.a"])).2.toOption = none := by decide +kernel
  have hafter : (handleClientMessage registry 1 0
      (.subscribe ["m.a"])).1.Holds 1 "m.a" := by decide +kernel
  have hbefore : ¬ registry.Holds 1 "m.a" := by decide +kernel
  intro h
  cases hr : (handleClientMessage registry 1 0 (.subscribe ["m.a"])).2 with
  | ok _ =>
      rw [hr] at hrefused
      cases hrefused
  | error e => exact hbefore ((h registry 1 0 ["m.a"] e hr).holds.1 hafter)

end ClientRegistry

end Wup.Gateway
