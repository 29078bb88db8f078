/-
Where the ids of a call end up.

Filling a worker, passing over a closed one and spawning a new one all
move ids from what remains to the pool and do nothing else (`Grown`):
what a worker had stays in front, nobody gets more than there is room
for, and as many ids are in the pool and remaining together as before. So
does the whole call, by transitivity, and at its end nothing remains
(`distribute_grown`). Unsubscribing only takes ids away (`Shrunk`).

A new worker must not take the place of an old one, so its id must be
new: `Fresh` is the invariant that the counter is ahead of all of them.
-/
import Wup.Aggregator.Distribution
import Wup.Lib.Runs

namespace Wup.Aggregator

open HashMap Runs

namespace Pool

variable {p p' p'' : Pool} {worker : String} {ids ids' : List String}

-- ============================================================== one worker

theorem isSubscribed_iff {id : String} :
    p.isSubscribed id = true
      ↔ ∃ worker ids, p.Has worker ids ∧ id ∈ ids := by
  unfold isSubscribed Has
  rw [List.any_eq_true]
  simp only [mem_values, decide_eq_true_eq]
  exact ⟨fun ⟨ids, ⟨worker, h⟩, hid⟩ => ⟨worker, ids, h, hid⟩,
    fun ⟨worker, ids, h, hid⟩ => ⟨ids, ⟨worker, h⟩, hid⟩⟩

theorem mem_allIds {id : String} :
    id ∈ p.allIds ↔ ∃ worker ids, p.Has worker ids ∧ id ∈ ids := by
  unfold allIds Has
  rw [Multiset.mem_coe, List.mem_flatten]
  simp only [mem_values]
  exact ⟨fun ⟨ids, ⟨worker, h⟩, hid⟩ => ⟨worker, ids, h, hid⟩,
    fun ⟨worker, ids, h, hid⟩ => ⟨ids, ⟨worker, h⟩, hid⟩⟩

theorem has_set {worker' : String} :
    (p.set worker ids).Has worker' ids'
      ↔ if worker' = worker then ids = ids' else p.Has worker' ids' := by
  unfold Has set
  rw [lookup_insert']
  split_ifs
  · exact Option.some_inj
  · rfl

/-- The ids of one worker, and of the others. -/
private theorem allIds_split (h : p.Has worker ids) :
    p.allIds = (ids : Multiset String)
      + (values (p.workers.erase worker)).flatten := by
  unfold allIds
  rw [Multiset.coe_add, Multiset.coe_eq_coe, ← List.flatten_cons]
  exact (values_perm h).flatten

private theorem allIds_set_split (ids' : List String) :
    (p.set worker ids').allIds = (ids' : Multiset String)
      + (values (p.workers.erase worker)).flatten := by
  unfold allIds set
  rw [values_insert, List.flatten_cons, Multiset.coe_add]

/-- What replacing the ids of a worker does to all ids. -/
theorem allIds_set (h : p.Has worker ids) (ids' : List String) :
    (p.set worker ids').allIds + (ids : Multiset String)
      = p.allIds + (ids' : Multiset String) := by
  rw [allIds_split h, allIds_set_split]
  abel

theorem allIds_extend (h : p.Has worker ids) (more : List String) :
    (p.set worker (ids ++ more)).allIds
      = p.allIds + (more : Multiset String) := by
  rw [allIds_split h, allIds_set_split, ← Multiset.coe_add]
  abel

-- ============================================================== worker ids

theorem workerId_injective : Function.Injective workerId := by
  intro m n h
  have hchars := congrArg String.toList h
  simp only [workerId, String.toList_append, List.append_cancel_left_eq]
    at hchars
  have hdigits : Nat.toDigits 10 m = Nat.toDigits 10 n := by
    simpa [toString, Nat.repr] using hchars
  have hnumber := congrArg (Nat.ofDigitChars 10 · 0) hdigits
  simpa only [Nat.ofDigitChars_ten_toDigits] using hnumber

/-- The ids still to be given out are not taken. -/
def Fresh (p : Pool) : Prop :=
  ∀ n, p.workerCounter < n → p.workers.lookup (workerId n) = none

/-- No worker has more ids than there is room for. -/
def Fits (p : Pool) : Prop :=
  ∀ worker ids, p.Has worker ids → ids.length ≤ p.maxSubsPerWorker

theorem fresh_new (maxSubsPerWorker : Nat) : Fresh (new maxSubsPerWorker) :=
  fun _ _ => rfl

theorem fits_new (maxSubsPerWorker : Nat) : Fits (new maxSubsPerWorker) := by
  intro worker ids h
  cases h

theorem has_spawnWorker :
    (p.spawnWorker ids).Has worker ids'
      ↔ if worker = workerId (p.workerCounter + 1) then ids = ids'
        else p.Has worker ids' := by
  unfold Has spawnWorker
  rw [lookup_insert']
  split_ifs
  · exact Option.some_inj
  · rfl

theorem allIds_spawnWorker (hfresh : p.Fresh) (ids : List String) :
    (p.spawnWorker ids).allIds = p.allIds + (ids : Multiset String) := by
  have hnone := hfresh (p.workerCounter + 1) (Nat.lt_succ_self _)
  unfold allIds spawnWorker
  rw [values_insert, erase_of_lookup_none hnone, List.flatten_cons,
    add_comm, Multiset.coe_add]

-- ======================================================== moving ids about

variable {closed : String → Bool} {rem rem' rem'' : List String}

/-- Ids were moved from `rem` to the pool, which left `rem'`. -/
structure Grown (closed : String → Bool) (p : Pool) (rem : List String)
    (p' : Pool) (rem' : List String) : Prop where
  max : p'.maxSubsPerWorker = p.maxSubsPerWorker
  sub : rem' ⊆ rem
  /-- Earlier ids stay in front. -/
  keeps : ∀ worker ids, p.Has worker ids →
    ∃ more, p'.Has worker (ids ++ more)
  /-- A worker has old ids and moved ones. -/
  origin : ∀ worker ids', p'.Has worker ids' → ∀ id ∈ ids',
    (∃ ids, p.Has worker ids ∧ id ∈ ids) ∨ id ∈ rem
  /-- No id is lost or doubled. -/
  all : p'.allIds + (rem' : Multiset String)
    = p.allIds + (rem : Multiset String)
  fits : p.Fits → p'.Fits
  fresh : p.Fresh → p'.Fresh
  /-- Moved ids are at open workers. -/
  alive : (∀ worker, closed worker = true → ∃ ids, p.Has worker ids) →
    ∀ id ∈ rem, id ∈ rem'
      ∨ p'.AtOpen closed id

/-- Nothing happens to the pool. -/
theorem Grown.stay (h : rem.Perm rem') : Grown closed p rem p rem' where
  max := rfl
  sub := h.symm.subset
  keeps := fun worker ids h => ⟨[], by rwa [List.append_nil]⟩
  origin := fun worker ids' h id hid => .inl ⟨ids', h, hid⟩
  all := by rw [Multiset.coe_eq_coe.2 h]
  fits := id
  fresh := id
  alive := fun _ id hid => .inl (h.subset hid)

theorem Grown.trans (h : Grown closed p rem p' rem')
    (h' : Grown closed p' rem' p'' rem'') :
    Grown closed p rem p'' rem'' where
  max := h'.max.trans h.max
  sub := List.Subset.trans h'.sub h.sub
  keeps := by
    intro worker ids hhas
    obtain ⟨more, hmore⟩ := h.keeps worker ids hhas
    obtain ⟨more', hmore'⟩ := h'.keeps worker _ hmore
    exact ⟨more ++ more', by rwa [← List.append_assoc]⟩
  origin := by
    intro worker ids'' hhas id hid
    rcases h'.origin worker ids'' hhas id hid with ⟨ids', hhas', hid'⟩ | hid'
    · exact h.origin worker ids' hhas' id hid'
    · exact .inr (h.sub hid')
  all := h'.all.trans h.all
  fits := h'.fits ∘ h.fits
  fresh := h'.fresh ∘ h.fresh
  alive := by
    intro hclosed id hid
    have hclosed' : ∀ worker, closed worker = true →
        ∃ ids, p'.Has worker ids := by
      intro worker hw
      obtain ⟨ids, hids⟩ := hclosed worker hw
      obtain ⟨more, hmore⟩ := h.keeps worker ids hids
      exact ⟨_, hmore⟩
    rcases h.alive hclosed id hid with hid | ⟨worker, ids', hhas, hid, hw⟩
    · exact h'.alive hclosed' id hid
    · obtain ⟨more, hmore⟩ := h'.keeps worker ids' hhas
      exact .inr ⟨worker, _, hmore, List.mem_append_left _ hid, hw⟩

/-- An open worker is sent ids it has room for. -/
theorem Grown.filled {toAdd : List String} (h : p.Has worker ids)
    (hroom : ids.length + toAdd.length ≤ p.maxSubsPerWorker)
    (hopen : closed worker = false) :
    Grown closed p (toAdd ++ rem) (p.set worker (ids ++ toAdd)) rem where
  max := rfl
  sub := List.subset_append_right ..
  keeps := by
    intro worker' ids' hhas
    by_cases hw : worker' = worker
    · subst hw
      obtain rfl := Option.some.inj (h.symm.trans hhas)
      exact ⟨toAdd, has_set.2 (by rw [if_pos rfl])⟩
    · exact ⟨[], has_set.2 (by rwa [if_neg hw, List.append_nil])⟩
  origin := by
    intro worker' ids' hhas id hid
    rw [has_set] at hhas
    split_ifs at hhas with hw
    · subst hw hhas
      rcases List.mem_append.1 hid with hid | hid
      · exact .inl ⟨ids, h, hid⟩
      · exact .inr (List.mem_append_left _ hid)
    · exact .inl ⟨ids', hhas, hid⟩
  all := by
    rw [allIds_extend h, ← Multiset.coe_add]
    abel
  fits := by
    intro hfits worker' ids' hhas
    rw [has_set] at hhas
    split_ifs at hhas with hw
    · subst hhas
      rwa [List.length_append]
    · exact hfits worker' ids' hhas
  fresh := by
    intro hfresh n hn
    have hne : workerId n ≠ worker := by
      rintro rfl
      cases (hfresh n hn).symm.trans h
    show AList.lookup (workerId n) (p.workers.insert worker _) = none
    rw [lookup_insert', if_neg hne]
    exact hfresh n hn
  alive := by
    intro _ id hid
    rcases List.mem_append.1 hid with hid | hid
    · exact .inr ⟨worker, ids ++ toAdd, has_set.2 (by rw [if_pos rfl]),
        List.mem_append_right _ hid, hopen⟩
    · exact .inl hid

/-- A new worker is spawned for a chunk. -/
theorem Grown.spawned {chunk : List String} (hfresh : p.Fresh)
    (hroom : chunk.length ≤ p.maxSubsPerWorker) :
    Grown closed p (chunk ++ rem) (p.spawnWorker chunk) rem where
  max := rfl
  sub := List.subset_append_right ..
  keeps := by
    intro worker ids hhas
    have hw : worker ≠ workerId (p.workerCounter + 1) := by
      rintro rfl
      cases (hfresh _ (Nat.lt_succ_self _)).symm.trans hhas
    exact ⟨[], has_spawnWorker.2 (by rwa [if_neg hw, List.append_nil])⟩
  origin := by
    intro worker ids' hhas id hid
    rw [has_spawnWorker] at hhas
    split_ifs at hhas with hw
    · subst hhas
      exact .inr (List.mem_append_left _ hid)
    · exact .inl ⟨ids', hhas, hid⟩
  all := by
    rw [allIds_spawnWorker hfresh, ← Multiset.coe_add]
    abel
  fits := by
    intro hfits worker ids' hhas
    rw [has_spawnWorker] at hhas
    split_ifs at hhas with hw
    · subst hhas
      exact hroom
    · exact hfits worker ids' hhas
  fresh := by
    intro _ n hn
    have hn' : p.workerCounter + 1 < n := hn
    have hne : workerId n ≠ workerId (p.workerCounter + 1) := by
      intro h
      have := workerId_injective h
      omega
    show AList.lookup (workerId n) (p.workers.insert _ chunk) = none
    rw [lookup_insert', if_neg hne]
    exact hfresh n (by omega)
  alive := by
    intro hclosed id hid
    rcases List.mem_append.1 hid with hid | hid
    · refine .inr ⟨_, chunk, has_spawnWorker.2 (by rw [if_pos rfl]), hid, ?_⟩
      -- a closed worker is an old one
      refine Bool.eq_false_iff.2 fun hw => ?_
      obtain ⟨ids, hids⟩ := hclosed _ hw
      cases (hfresh _ (Nat.lt_succ_self _)).symm.trans hids
    · exact .inl hid

-- =============================================================== the loops

section Loops

variable {α : Type*} {idOf : α → String}

theorem fill_cons {remaining : List α} {es : List (String × List String)} :
    fill idOf closed p remaining ((worker, ids) :: es)
      = if remaining = [] then (p, remaining)
        else if 0 < p.maxSubsPerWorker - ids.length then
          if closed worker then
            fill idOf closed p
              (remaining.drop (p.maxSubsPerWorker - ids.length)
                ++ remaining.take (p.maxSubsPerWorker - ids.length)) es
          else
            fill idOf closed
              (p.set worker (ids ++ (remaining.take
                (p.maxSubsPerWorker - ids.length)).map idOf))
              (remaining.drop (p.maxSubsPerWorker - ids.length)) es
        else fill idOf closed p remaining es := rfl

/-- Filling the workers moves ids. -/
theorem fill_grown {es : List (String × List String)}
    (hes : ∀ e ∈ es, p.Has e.1 e.2) (hkeys : (es.map (·.1)).Nodup)
    (remaining : List α) :
    Grown closed p (remaining.map idOf)
      (fill idOf closed p remaining es).1
      ((fill idOf closed p remaining es).2.map idOf) := by
  induction es generalizing p remaining with
  | nil => exact .stay (.refl _)
  | cons e es ih =>
      obtain ⟨worker, ids⟩ := e
      obtain ⟨hw, hkeys⟩ := List.nodup_cons.1 hkeys
      have hhas : p.Has worker ids := hes _ (.head _)
      have hes' : ∀ e ∈ es, p.Has e.1 e.2 := fun e he => hes e (.tail _ he)
      have hsplit : remaining.map idOf
          = (remaining.take (p.maxSubsPerWorker - ids.length)).map idOf
            ++ (remaining.drop (p.maxSubsPerWorker - ids.length)).map
              idOf := by
        rw [← List.map_append, List.take_append_drop]
      rw [fill_cons]
      split_ifs with hnone havailable hclosed
      · exact .stay (.refl _)
      · refine .trans (.stay ?_) (ih hes' hkeys _)
        rw [hsplit, List.map_append]
        exact List.perm_append_comm
      · have hroom : ids.length + ((remaining.take
            (p.maxSubsPerWorker - ids.length)).map idOf).length
              ≤ p.maxSubsPerWorker := by
          rw [List.length_map, List.length_take]
          omega
        rw [hsplit]
        refine .trans (.filled hhas hroom (Bool.eq_false_iff.2 hclosed))
          (ih (fun e he => ?_) hkeys _)
        -- the workers left to see have not been touched
        have hne : e.1 ≠ worker := by
          rintro rfl
          exact hw (List.mem_map.2 ⟨e, he, rfl⟩)
        exact has_set.2 (by rw [if_neg hne]; exact hes' e he)
      · exact ih hes' hkeys _

/-- Spawning workers moves ids, all that remain. -/
theorem spawnAll_grown {turns : Nat} {remaining : List α}
    (hfresh : p.Fresh) (h : spawnAll idOf turns p remaining = some p') :
    Grown closed p (remaining.map idOf) p' [] := by
  induction turns generalizing p remaining with
  | zero =>
      cases remaining with
      | nil =>
          obtain rfl := Option.some.inj h
          exact .stay (.refl _)
      | cons x remaining => cases h
  | succ turns ih =>
      cases remaining with
      | nil =>
          obtain rfl := Option.some.inj h
          exact .stay (.refl _)
      | cons x remaining =>
          rw [spawnAll] at h
          have hsplit : (x :: remaining).map idOf
              = ((x :: remaining).take p.maxSubsPerWorker).map idOf
                ++ ((x :: remaining).drop p.maxSubsPerWorker).map idOf := by
            rw [← List.map_append, List.take_append_drop]
          have hroom : (((x :: remaining).take
              p.maxSubsPerWorker).map idOf).length
                ≤ p.maxSubsPerWorker := by
            rw [List.length_map]
            exact List.length_take_le ..
          have hstep : Grown closed p
              (_ ++ ((x :: remaining).drop p.maxSubsPerWorker).map idOf)
                _ _ := .spawned hfresh hroom
          rw [hsplit]
          exact hstep.trans (ih (hstep.fresh hfresh) h)

/-- One turn for each id is enough, if there is room for any. -/
theorem spawnAll_isSome {turns : Nat} {remaining : List α}
    (hmax : 0 < p.maxSubsPerWorker) (h : remaining.length ≤ turns) :
    (spawnAll idOf turns p remaining).isSome = true := by
  induction turns generalizing p remaining with
  | zero =>
      obtain rfl := List.length_eq_zero_iff.1 (Nat.le_zero.1 h)
      rfl
  | succ turns ih =>
      cases remaining with
      | nil => rfl
      | cons x remaining =>
          rw [spawnAll]
          refine ih hmax ?_
          rw [List.length_drop]
          omega

/-- If there is none, no number of turns is. -/
theorem spawnAll_eq_none {turns : Nat} {x : α} {remaining : List α}
    (hmax : p.maxSubsPerWorker = 0) :
    spawnAll idOf turns p (x :: remaining) = none := by
  induction turns generalizing p with
  | zero => rfl
  | succ turns ih =>
      rw [spawnAll, hmax]
      exact ih hmax

end Loops

-- =============================================================== the calls

section Distribute

variable {α : Type*} (idOf : α → String) (p : Pool) (o : Occasion)
  (requested : List α)

/-- Filling the workers of the pool with what is new. -/
def fillNew : Pool × List α :=
  fill idOf o.closed p (requested.filter fun x => !p.isSubscribed (idOf x))
    (o.order.entries p.workers)

theorem distribute_eq :
    p.distribute idOf o requested
      = spawnAll idOf (p.fillNew idOf o requested).2.length
          (p.fillNew idOf o requested).1
          (p.fillNew idOf o requested).2 := rfl

theorem fillNew_grown :
    Grown o.closed p (p.newIds (requested.map idOf))
      (p.fillNew idOf o requested).1
      ((p.fillNew idOf o requested).2.map idOf) := by
  have hes : ∀ e ∈ o.order.entries p.workers, p.Has e.1 e.2 :=
    fun e he => (o.order.mem_entries).1 he
  have hnew : p.newIds (requested.map idOf)
      = (requested.filter fun x => !p.isSubscribed (idOf x)).map idOf := by
    rw [newIds, List.filter_map]
    rfl
  rw [hnew]
  exact fill_grown hes (o.order.nodup_keys p.workers) _

variable {p o requested}

/-- A call that subscribes moves the new ids, all of them. -/
theorem distribute_grown (hfresh : p.Fresh)
    (h : p.distribute idOf o requested = some p') :
    Grown o.closed p (p.newIds (requested.map idOf)) p' [] := by
  have hfill := p.fillNew_grown idOf o requested
  rw [distribute_eq] at h
  exact hfill.trans (spawnAll_grown (hfill.fresh hfresh) h)

theorem distribute_isSome (hmax : 0 < p.maxSubsPerWorker) :
    (p.distribute idOf o requested).isSome = true := by
  have hfill := p.fillNew_grown idOf o requested
  rw [distribute_eq]
  exact spawnAll_isSome (by rw [hfill.max]; exact hmax) le_rfl

end Distribute

/-- Ids were taken from workers. -/
structure Shrunk (p p' : Pool) : Prop where
  max : p'.maxSubsPerWorker = p.maxSubsPerWorker
  counter : p'.workerCounter = p.workerCounter
  origin : ∀ worker ids', p'.Has worker ids' →
    ∃ ids, p.Has worker ids ∧ ids'.Sublist ids
  all : p'.allIds ≤ p.allIds

theorem Shrunk.refl (p : Pool) : Shrunk p p :=
  ⟨rfl, rfl, fun _ ids h => ⟨ids, h, .refl _⟩, le_rfl⟩

theorem Shrunk.trans (h : Shrunk p p') (h' : Shrunk p' p'') :
    Shrunk p p'' where
  max := h'.max.trans h.max
  counter := h'.counter.trans h.counter
  origin := by
    intro worker ids'' hhas
    obtain ⟨ids', hhas', hsub'⟩ := h'.origin worker ids'' hhas
    obtain ⟨ids, hhas, hsub⟩ := h.origin worker ids' hhas'
    exact ⟨ids, hhas, hsub'.trans hsub⟩
  all := h'.all.trans h.all

theorem Shrunk.set (h : p.Has worker ids) (hsub : ids'.Sublist ids) :
    Shrunk p (p.set worker ids') where
  max := rfl
  counter := rfl
  origin := by
    intro worker' ids'' hhas
    rw [has_set] at hhas
    split_ifs at hhas with hw
    · subst hw hhas
      exact ⟨ids, h, hsub⟩
    · exact ⟨ids'', hhas, .refl _⟩
  all := by
    have hle : (ids' : Multiset String) ≤ ids := hsub.subperm
    have hall := allIds_set h ids'
    rw [← add_le_add_iff_right (ids : Multiset String), hall]
    exact add_le_add_right hle _

theorem Shrunk.fits (h : Shrunk p p') (hfits : p.Fits) : p'.Fits := by
  intro worker ids' hhas
  obtain ⟨ids, hhas, hsub⟩ := h.origin worker ids' hhas
  rw [h.max]
  exact hsub.length_le.trans (hfits worker ids hhas)

theorem Shrunk.fresh (h : Shrunk p p') (hfresh : p.Fresh) : p'.Fresh := by
  intro n hn
  rw [h.counter] at hn
  refine Option.eq_none_iff_forall_ne_some.2 fun ids' hhas => ?_
  obtain ⟨ids, hhas, -⟩ := h.origin _ ids' hhas
  cases (hfresh n hn).symm.trans hhas

/-- A call that unsubscribes takes ids from workers. -/
theorem unsubscribe_shrunk (p : Pool) (o : Occasion) (ids : List String) :
    Shrunk p (p.unsubscribe o ids) := by
  unfold unsubscribe
  have hes : ∀ e ∈ o.order.entries p.workers, p.Has e.1 e.2 :=
    fun e he => (o.order.mem_entries).1 he
  have hkeys := o.order.nodup_keys p.workers
  generalize o.order.entries p.workers = es at hes hkeys
  induction es generalizing p with
  | nil => exact .refl p
  | cons e es ih =>
      obtain ⟨worker, subscribedIds⟩ := e
      obtain ⟨hw, hkeys⟩ := List.nodup_cons.1 hkeys
      have hes' : ∀ e ∈ es, p.Has e.1 e.2 := fun e he => hes e (.tail _ he)
      rw [List.foldl_cons]
      dsimp only
      split_ifs
      · exact ih p hes' hkeys
      · have hstep {kept : List String} (h : kept.Sublist subscribedIds) :
            Shrunk p (p.set worker kept) := .set (hes _ (.head _)) h
        refine (hstep List.filter_sublist).trans
          (ih _ (fun e he => ?_) hkeys)
        have hne : e.1 ≠ worker := by
          rintro rfl
          exact hw (List.mem_map.2 ⟨e, he, rfl⟩)
        exact has_set.2 (by rw [if_neg hne]; exact hes' e he)

/-- A call that subscribes, whichever it is. -/
theorem step_grown {c : Occasion × PoolCall} (hfresh : p.Fresh)
    (hsub : c.2.Subscribes) (h : p.step c = some p') :
    Grown c.1.closed p (p.newIds c.2.requested) p' [] := by
  obtain ⟨o, call⟩ := c
  cases call with
  | subscribe ids =>
      have hgrown := distribute_grown id hfresh h
      rwa [List.map_id] at hgrown
  | subscribeWithMappings mappings => exact distribute_grown _ hfresh h
  | unsubscribe ids => exact hsub.elim

/-- One that does not. -/
theorem step_shrunk {c : Occasion × PoolCall} (hsub : ¬ c.2.Subscribes)
    (h : p.step c = some p') : Shrunk p p' := by
  obtain ⟨o, call⟩ := c
  cases call with
  | unsubscribe ids =>
      obtain rfl := Option.some.inj h
      exact unsubscribe_shrunk p o ids
  | _ => exact (hsub trivial).elim

theorem step_isSome (hmax : 0 < p.maxSubsPerWorker)
    (c : Occasion × PoolCall) : (p.step c).isSome = true := by
  obtain ⟨o, call⟩ := c
  cases call with
  | unsubscribe ids => rfl
  | _ => exact distribute_isSome _ hmax

-- ==================================================================== runs

variable {maxSubsPerWorker : Nat} {P : Pool → Occasion × PoolCall → Prop}

/-- The invariant of every run. -/
structure Sound (maxSubsPerWorker : Nat) (p : Pool) : Prop where
  fresh : p.Fresh
  fits : p.Fits
  max : p.maxSubsPerWorker = maxSubsPerWorker

theorem Sound.step {c : Occasion × PoolCall} (h : Sound maxSubsPerWorker p)
    (hstep : p.step c = some p') : Sound maxSubsPerWorker p' := by
  by_cases hsub : c.2.Subscribes
  · have hgrown := step_grown h.fresh hsub hstep
    exact ⟨hgrown.fresh h.fresh, hgrown.fits h.fits, hgrown.max.trans h.max⟩
  · have hshrunk := step_shrunk hsub hstep
    exact ⟨hshrunk.fresh h.fresh, hshrunk.fits h.fits,
      hshrunk.max.trans h.max⟩

theorem sound_of_reached (hrun : Reached step P (new maxSubsPerWorker) p) :
    Sound maxSubsPerWorker p :=
  hrun.invariant ⟨fresh_new _, fits_new _, rfl⟩
    fun _ _ _ h _ hstep => h.step hstep

/-- Every call returns, no worker gets more ids than there is room for,
and a call that subscribes adds the requested ids that were new behind
what the workers had. -/
theorem calls_conserve_ids (hmax : 1 ≤ maxSubsPerWorker)
    (hrun : Reached step (fun _ _ => True) (new maxSubsPerWorker) p) :
    (∀ worker ids, p.Has worker ids → ids.length ≤ maxSubsPerWorker)
    ∧ ∀ c : Occasion × PoolCall, ∃ p', p.step c = some p'
      ∧ (c.2.Subscribes →
        p'.allIds
          = p.allIds + (p.newIds c.2.requested : Multiset String)
        ∧ ∀ worker ids, p.Has worker ids →
          ∃ more, p'.Has worker (ids ++ more)) := by
  have h := sound_of_reached hrun
  refine ⟨fun worker ids hhas => ?_, fun c => ?_⟩
  · rw [← h.max]
    exact h.fits worker ids hhas
  · have hpos : 0 < p.maxSubsPerWorker := by
      rw [h.max]
      exact hmax
    obtain ⟨p', hstep⟩ := Option.isSome_iff_exists.1 (step_isSome hpos c)
    refine ⟨p', hstep, fun hsub => ?_⟩
    have hgrown := step_grown h.fresh hsub hstep
    have hall := hgrown.all
    rw [Multiset.coe_nil, add_zero] at hall
    exact ⟨hall, hgrown.keeps⟩

/-- Three ids for a full worker and one with room: the one left over goes
to a new worker. -/
theorem calls_conserve_ids_split :
    let o : Occasion := ⟨.stored, fun _ => false⟩
    ∃ p p', Reached step (fun _ _ => True) (new 2) p
      ∧ p.step (o, .subscribe ["d", "a", "e"]) = some p'
      ∧ p'.allIds = p.allIds + (["d", "e"] : Multiset String)
      ∧ ∃ more, p'.Has "poly-worker-2" (["c"] ++ more) := by
  intro o
  obtain ⟨p, hrun, hhas, hnew⟩ :
      ∃ p, Reached step (fun _ _ => True) (new 2) p
        ∧ p.Has "poly-worker-2" ["c"]
        ∧ p.newIds ["d", "a", "e"] = ["d", "e"] :=
    exists_reached [(o, .subscribe ["a", "b", "c"])] (by decide +kernel)
  obtain ⟨-, hcalls⟩ := calls_conserve_ids (by decide) hrun
  obtain ⟨p', hstep, hmoved⟩ := hcalls (o, .subscribe ["d", "a", "e"])
  obtain ⟨hall, hkeeps⟩ := hmoved trivial
  have hall' : p'.allIds
      = p.allIds + (p.newIds ["d", "a", "e"] : Multiset String) := hall
  rw [hnew] at hall'
  exact ⟨p, p', hrun, hstep, hall', hkeeps _ _ hhas⟩

/-- What a call that subscribes does to ids that occurred once. -/
theorem nodup_step_iff {c : Occasion × PoolCall} (hfresh : p.Fresh)
    (honce : p.allIds.Nodup) (hsub : c.2.Subscribes)
    (hstep : p.step c = some p') :
    p'.allIds.Nodup ↔ (p.newIds c.2.requested).Nodup := by
  have hall := (step_grown hfresh hsub hstep).all
  rw [Multiset.coe_nil, add_zero] at hall
  rw [hall, Multiset.nodup_add, Multiset.coe_nodup]
  refine ⟨fun h => h.2.1, fun h => ⟨honce, h, ?_⟩⟩
  rw [Multiset.disjoint_left]
  intro id hid hnew
  obtain ⟨-, hnot⟩ := List.mem_filter.1 (Multiset.mem_coe.1 hnew)
  rw [isSubscribed_iff.2 (mem_allIds.1 hid)] at hnot
  cases hnot

/-- No token is recorded twice, as long as no call asks for a new one
twice. -/
theorem tokens_subscribed_once
    (hrun : Reached step (fun p c => (p.newIds c.2.requested).Nodup)
      (new maxSubsPerWorker) p) : p.allIds.Nodup := by
  have hboth : Sound maxSubsPerWorker p ∧ p.allIds.Nodup := by
    induction hrun with
    | start =>
        exact ⟨⟨fresh_new _, fits_new _, rfl⟩, Multiset.nodup_zero⟩
    | @step p p' c _ hnew hstep ih =>
        obtain ⟨h, honce⟩ := ih
        refine ⟨h.step hstep, ?_⟩
        by_cases hsub : c.2.Subscribes
        · exact (nodup_step_iff h.fresh honce hsub hstep).2 hnew
        · exact Multiset.nodup_of_le (step_shrunk hsub hstep).all honce
  exact hboth.2

/-- Two calls with an overlap. -/
theorem tokens_subscribed_once_overlap :
    ∃ p, Reached step (fun p c => (p.newIds c.2.requested).Nodup) (new 2) p
      ∧ p.Has "poly-worker-2" ["c", "d"] ∧ p.allIds.Nodup := by
  let o : Occasion := ⟨.stored, fun _ => false⟩
  obtain ⟨p, hrun, hhas⟩ :
      ∃ p, Reached step (fun p c => (p.newIds c.2.requested).Nodup) (new 2) p
        ∧ p.Has "poly-worker-2" ["c", "d"] :=
    exists_reached
      [(o, .subscribe ["a", "b", "c"]), (o, .subscribe ["b", "d"])]
      (by decide +kernel)
  exact ⟨p, hrun, hhas, tokens_subscribed_once hrun⟩

/-- A token of two events, asked for in one call: two workers are
subscribed to it. -/
theorem token_subscribed_twice :
    let o : Occasion := ⟨.stored, fun _ => false⟩
    let mappings : List TokenMapping :=
      [⟨"t", "m", "event-1"⟩, ⟨"t", "m", "event-2"⟩]
    ∃ p, (new 1).step (o, .subscribeWithMappings mappings) = some p
      ∧ Reached step (fun _ _ => True) (new 1) p
      ∧ p.Has "poly-worker-1" ["t"] ∧ p.Has "poly-worker-2" ["t"]
      ∧ ¬ p.allIds.Nodup := by
  intro o mappings
  have hhas : ((new 1).step (o, .subscribeWithMappings mappings)).any
      (fun p => p.Has "poly-worker-1" ["t"] ∧ p.Has "poly-worker-2" ["t"]
        ∧ p.workers.values.flatten = ["t", "t"]) = true := by
    decide +kernel
  obtain ⟨p, hstep, hp⟩ := (Option.any_eq_true _ _).1 hhas
  obtain ⟨hfirst, hsecond, hall⟩ := of_decide_eq_true hp
  refine ⟨p, hstep, .step .start trivial hstep, hfirst, hsecond, ?_⟩
  rw [allIds, hall]
  decide

/-- After a call that subscribes, all requested ids are at open workers
exactly if those are that were subscribed before. -/
theorem requested_at_open_iff {c : Occasion × PoolCall}
    (hrun : Reached step (fun _ _ => True) (new maxSubsPerWorker) p)
    (hsub : c.2.Subscribes)
    (hclosed : ∀ worker, c.1.closed worker = true →
      ∃ ids, p.Has worker ids)
    (hstep : p.step c = some p') :
    (∀ id ∈ c.2.requested, p'.AtOpen c.1.closed id)
      ↔ ∀ id ∈ c.2.requested, p.isSubscribed id = true →
        p.AtOpen c.1.closed id := by
  have hgrown := step_grown (sound_of_reached hrun).fresh hsub hstep
  have hnew {id : String} : id ∈ p.newIds c.2.requested
      ↔ id ∈ c.2.requested ∧ p.isSubscribed id = false := by
    simp [newIds]
  refine forall₂_congr fun id hid => ⟨fun h hold => ?_, fun h => ?_⟩
  · obtain ⟨worker, ids', hhas, hmem, hopen⟩ := h
    rcases hgrown.origin worker ids' hhas id hmem with
      ⟨ids, hhas', hmem'⟩ | hadded
    · exact ⟨worker, ids, hhas', hmem', hopen⟩
    · rw [(hnew.1 hadded).2] at hold
      cases hold
  · cases hcase : p.isSubscribed id with
    | true =>
        obtain ⟨worker, ids, hhas, hmem, hopen⟩ := h hcase
        obtain ⟨more, hmore⟩ := hgrown.keeps worker ids hhas
        exact ⟨worker, _, hmore, List.mem_append_left _ hmem, hopen⟩
    | false =>
        rcases hgrown.alive hclosed id (hnew.2 ⟨hid, hcase⟩) with
          hleft | hopen
        · cases hleft
        · exact hopen

/-- A worker has died, and its ids are not asked for again. -/
theorem requested_at_open_new :
    let o : Occasion := ⟨.stored, fun worker => worker = "poly-worker-1"⟩
    ∃ p p' : Pool, p.Has "poly-worker-1" ["a"]
      ∧ p.step (o, .subscribe ["b", "c"]) = some p'
      ∧ ∀ id ∈ ["b", "c"], p'.AtOpen o.closed id := by
  intro o
  obtain ⟨p, hrun, hhas, hnew⟩ :
      ∃ p, Reached step (fun _ _ => True) (new 2) p
        ∧ p.Has "poly-worker-1" ["a"]
        ∧ ∀ id ∈ ["b", "c"], p.isSubscribed id = false :=
    exists_reached [(⟨.stored, fun _ => false⟩, .subscribe ["a"])]
      (by decide +kernel)
  have hmax : 0 < p.maxSubsPerWorker := by
    rw [(sound_of_reached hrun).max]
    decide
  obtain ⟨p', hstep⟩ := Option.isSome_iff_exists.1
    (step_isSome hmax (o, .subscribe ["b", "c"]))
  have hclosed : ∀ worker, o.closed worker = true →
      ∃ ids, p.Has worker ids := by
    intro worker hw
    obtain rfl := of_decide_eq_true hw
    exact ⟨_, hhas⟩
  have hiff := requested_at_open_iff (c := (o, .subscribe ["b", "c"])) hrun
    trivial hclosed hstep
  refine ⟨p, p', hhas, hstep, hiff.2 fun id hid h => ?_⟩
  rw [hnew id hid] at h
  cases h

/-- A worker has died, and a call for its id returns without asking
anyone for it. -/
theorem requested_at_dead_worker :
    let o : Occasion := ⟨.stored, fun worker => worker = "poly-worker-1"⟩
    ∃ p p', Reached step (fun _ _ => True) (new 2) p
      ∧ p.Has "poly-worker-1" ["a"]
      ∧ p.step (o, .subscribe ["a"]) = some p'
      ∧ ¬ p'.AtOpen o.closed "a" := by
  intro o
  let before : Occasion := ⟨.stored, fun _ => false⟩
  have hsteps : ((new 2).step (before, .subscribe ["a"])).any (fun p =>
      p.Has "poly-worker-1" ["a"]
        ∧ (p.step (o, .subscribe ["a"])).any (fun p' =>
          p'.workers.entries = [⟨"poly-worker-1", ["a"]⟩])) = true := by
    decide +kernel
  obtain ⟨p, hfirst, hp⟩ := (Option.any_eq_true _ _).1 hsteps
  obtain ⟨hhas, hsecond⟩ := of_decide_eq_true hp
  obtain ⟨p', hstep, hp'⟩ := (Option.any_eq_true _ _).1 hsecond
  refine ⟨p, p', .step .start trivial hfirst, hhas, hstep, ?_⟩
  rintro ⟨worker, ids, hat, -, hopen⟩
  have hmem : (⟨worker, ids⟩ : Sigma fun _ : String => List String)
      ∈ p'.workers.entries := AList.mem_lookup_iff.1 hat
  rw [of_decide_eq_true hp'] at hmem
  obtain rfl : worker = "poly-worker-1" := by
    cases List.mem_singleton.1 hmem
    rfl
  cases hopen

end Pool

end Wup.Aggregator
