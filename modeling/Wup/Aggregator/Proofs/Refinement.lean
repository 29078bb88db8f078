/-
A call taken step by step is the call as a whole.

The supervisor waits inside its calls and its workers go on meanwhile;
the pool makes a call at once. At every moment of a run the supervisor's
records show a pool (`Shows`), and the call in progress is one that was
begun on a pool calls have led to and has this much left to do: whatever
becomes of the sends that are left, the call as a whole comes to what the
rest of it comes to from here (`Filling`, `Spawning`, `Removing`). A send
that finds the channel open or closed settles what becomes of it. So
between calls the records are a pool that whole calls lead to
(`pool_of_reached`), and what holds of those holds of the records.
-/
import Wup.Aggregator.Proofs.Distribution
import Wup.Aggregator.Proofs.Steps

namespace Wup.Aggregator

open HashMap Runs

-- ========================================================= calls under way

namespace Pool

variable {m : Nat} {q q' : Pool} {worker : String}
  {ids remaining remaining' workers : List String}

/-- Calls lead to this pool. -/
def Between (m : Nat) (p : Pool) : Prop :=
  Reached step (fun _ _ => True) (new m) p

/-- Entries of the pool, of these workers in this order. -/
structure Unseen (q : Pool) (workers : List String)
    (es : List (String × List String)) : Prop where
  keys : es.map (·.1) = workers
  nodup : workers.Nodup
  has : ∀ e ∈ es, q.Has e.1 e.2

/-- The channels are closed as in `o`, but for those of the workers. -/
def Settled (o : Occasion) (workers : List String)
    (closed : String → Bool) : Prop :=
  ∀ worker, worker ∉ workers → closed worker = o.closed worker

/-- A call that subscribes has yet to fill the workers. -/
def Filling (m : Nat) (q : Pool) (remaining workers : List String) :
    Prop :=
  ∃ es, q.Unseen workers es ∧ ∃ p o ids, Between m p
    ∧ ∀ closed, Settled o workers closed →
      fill id closed p (p.newIds ids) (o.order.entries p.workers)
        = fill id closed q remaining es

/-- A call that subscribes has yet to spawn workers. -/
def Spawning (m : Nat) (q : Pool) (remaining : List String) : Prop :=
  ∃ p o ids, Between m p ∧ ∀ turns p',
    spawnAll id turns q remaining = some p' → p.subscribe o ids = some p'

/-- What a call that unsubscribes does to one worker. -/
def removeFrom (closed : String → Bool) (ids : List String) (p : Pool)
    (e : String × List String) : Pool :=
  let toRemove := ids.filter fun id => id ∈ e.2
  if toRemove = [] ∨ closed e.1 then p
  else p.set e.1 (e.2.filter fun id => id ∉ toRemove)

/-- A call that unsubscribes has yet to see to the workers. -/
def Removing (m : Nat) (q : Pool) (ids workers : List String) : Prop :=
  ∃ es, q.Unseen workers es ∧ ∃ p o, Between m p
    ∧ ∀ closed, Settled o workers closed →
      (o.order.entries p.workers).foldl (removeFrom closed ids) p
        = es.foldl (removeFrom closed ids) q

theorem unsubscribe_eq (p : Pool) (o : Occasion) (ids : List String) :
    p.unsubscribe o ids
      = (o.order.entries p.workers).foldl (removeFrom o.closed ids) p :=
  rfl

/-- What becomes of the next send is settled. -/
theorem Settled.cons {o : Occasion} {b : Bool} {closed : String → Bool}
    (hw : worker ∉ workers)
    (h : Settled { o with closed := Function.update o.closed worker b }
      workers closed) :
    closed worker = b ∧ Settled o (worker :: workers) closed := by
  refine ⟨?_, fun worker' hw' => ?_⟩
  · rw [h worker hw]
    exact Function.update_self ..
  · rw [List.mem_cons, not_or] at hw'
    obtain ⟨hne, hw'⟩ := hw'
    rw [h worker' hw']
    exact Function.update_of_ne hne ..

/-- A worker is seen to. -/
theorem Unseen.tail {es : List (String × List String)}
    (h : q.Unseen (worker :: workers) es) (hhas : q.Has worker ids)
    (hkeep : ∀ worker' ids', worker' ≠ worker → q.Has worker' ids' →
      q'.Has worker' ids') :
    ∃ es', es = (worker, ids) :: es' ∧ worker ∉ workers
      ∧ q'.Unseen workers es' := by
  obtain ⟨hw, hnodup⟩ := List.nodup_cons.1 h.nodup
  obtain ⟨e, es', rfl, rfl, hkeys⟩ := List.map_eq_cons_iff.1 h.keys
  have hids : e.2 = ids :=
    Option.some.inj ((h.has e (.head _)).symm.trans hhas)
  refine ⟨es', by rw [← hids], hw, hkeys, hnodup, fun e' he' => ?_⟩
  refine hkeep _ _ ?_ (h.has e' (.tail _ he'))
  rintro heq
  rw [← hkeys, ← heq] at hw
  exact hw (List.mem_map.2 ⟨e', he', rfl⟩)

theorem has_set_of_ne {ids' : List String} (worker' : String)
    (ids'' : List String) (hne : worker' ≠ worker)
    (h : q.Has worker' ids'') : (q.set worker ids').Has worker' ids'' := by
  rw [has_set, if_neg hne]
  exact h

/-- The next worker is seen to, whose channel is closed or not. -/
theorem Filling.next (b : Bool)
    (h : q.Filling m remaining (worker :: workers))
    (hhas : q.Has worker ids)
    (hkeep : ∀ worker' ids', worker' ≠ worker → q.Has worker' ids' →
      q'.Has worker' ids')
    (hfill : ∀ closed es, closed worker = b →
      fill id closed q remaining ((worker, ids) :: es)
        = fill id closed q' remaining' es) :
    q'.Filling m remaining' workers := by
  obtain ⟨es, hunseen, p, o, ids', hp, hcall⟩ := h
  obtain ⟨es', rfl, hw, hunseen'⟩ := hunseen.tail hhas hkeep
  refine ⟨es', hunseen', p,
    { o with closed := Function.update o.closed worker b }, ids', hp,
    fun closed hsettled => ?_⟩
  obtain ⟨hb, hsettled⟩ := hsettled.cons hw
  rw [hcall closed hsettled, hfill closed es' hb]

theorem fill_nil {α : Type} {idOf : α → String} {closed : String → Bool}
    (es : List (String × List String)) :
    fill idOf closed q [] es = (q, []) := by
  cases es with
  | nil => rfl
  | cons e es => rfl

/-- A worker is passed over: nothing is left, or it has no room. -/
theorem Filling.pass (h : q.Filling m remaining (worker :: workers))
    (hhas : q.Has worker ids)
    (hpass : remaining = [] ∨ q.maxSubsPerWorker - ids.length = 0) :
    q.Filling m remaining workers := by
  refine h.next false hhas (fun _ _ _ h => h) fun closed es _ => ?_
  rcases hpass with rfl | hfull
  · rw [fill_nil, fill_nil]
  · rw [fill_cons, hfull, if_neg (lt_irrefl 0)]
    split
    · next hnone => rw [hnone, fill_nil]
    · rfl

section Send

variable (h : q.Filling m remaining (worker :: workers))
  (hhas : q.Has worker ids) (hremaining : remaining ≠ [])
  (hroom : 0 < q.maxSubsPerWorker - ids.length)

include h hhas hremaining hroom

/-- A worker takes what it has room for. -/
theorem Filling.sent :
    (q.set worker (ids
        ++ remaining.take (q.maxSubsPerWorker - ids.length))).Filling m
      (remaining.drop (q.maxSubsPerWorker - ids.length)) workers := by
  refine h.next false hhas has_set_of_ne fun closed es hopen => ?_
  rw [fill_cons, if_neg hremaining, if_pos hroom, hopen,
    if_neg Bool.false_ne_true, List.map_id]

/-- A worker is dead, and what it had room for goes to the end. -/
theorem Filling.closed :
    q.Filling m (remaining.drop (q.maxSubsPerWorker - ids.length)
      ++ remaining.take (q.maxSubsPerWorker - ids.length)) workers := by
  refine h.next true hhas (fun _ _ _ h => h) fun closed es hclosed => ?_
  rw [fill_cons, if_neg hremaining, if_pos hroom, hclosed, if_pos rfl]

end Send

-- ================================================= the turns of a spawning

theorem spawnAll_succ {α : Type} {idOf : α → String} {turns : Nat}
    {remaining : List α} {p' : Pool}
    (h : spawnAll idOf turns q remaining = some p') :
    spawnAll idOf (turns + 1) q remaining = some p' := by
  induction turns generalizing q remaining with
  | zero =>
      cases remaining with
      | nil => exact h
      | cons x remaining => cases h
  | succ turns ih =>
      cases remaining with
      | nil => exact h
      | cons x remaining =>
          rw [spawnAll] at h ⊢
          exact ih h

theorem spawnAll_mono {α : Type} {idOf : α → String} {turns turns' : Nat}
    {remaining : List α} {p' : Pool}
    (h : spawnAll idOf turns q remaining = some p')
    (hle : turns ≤ turns') :
    spawnAll idOf turns' q remaining = some p' := by
  induction hle with
  | refl => exact h
  | step _ ih => exact spawnAll_succ ih

/-- One turn for each id is enough, if any number is. -/
theorem spawnAll_length {α : Type} {idOf : α → String} {turns : Nat}
    {remaining : List α} {p' : Pool}
    (h : spawnAll idOf turns q remaining = some p') :
    spawnAll idOf remaining.length q remaining = some p' := by
  cases remaining with
  | nil => cases turns <;> exact h
  | cons x remaining =>
      have hmax : 0 < q.maxSubsPerWorker := by
        refine Nat.pos_of_ne_zero fun hmax => ?_
        rw [spawnAll_eq_none hmax] at h
        cases h
      have hreturns : (spawnAll idOf (x :: remaining).length q
          (x :: remaining)).isSome = true := spawnAll_isSome hmax le_rfl
      obtain ⟨p'', hp''⟩ := Option.isSome_iff_exists.1 hreturns
      have hlong := spawnAll_mono h
        (le_max_left turns (x :: remaining).length)
      have hsame := spawnAll_mono hp''
        (le_max_right turns (x :: remaining).length)
      rw [hp'', ← hlong, ← hsame]

/-- The workers are filled. -/
theorem Filling.spawning (h : q.Filling m remaining []) :
    q.Spawning m remaining := by
  obtain ⟨es, hunseen, p, o, ids', hp, hcall⟩ := h
  obtain rfl : es = [] := List.map_eq_nil_iff.1 hunseen.keys
  refine ⟨p, o, ids', hp, fun turns p' hspawn => ?_⟩
  have hfill := hcall o.closed fun _ _ => rfl
  show p.distribute id o ids' = some p'
  rw [distribute_eq]
  have hnew : p.fillNew id o ids' = (q, remaining) := hfill
  rw [hnew]
  exact spawnAll_length hspawn

/-- A worker is spawned. -/
theorem Spawning.spawn (h : q.Spawning m remaining)
    (hremaining : remaining ≠ []) :
    (q.spawnWorker (remaining.take q.maxSubsPerWorker)).Spawning m
      (remaining.drop q.maxSubsPerWorker) := by
  obtain ⟨p, o, ids', hp, hcall⟩ := h
  refine ⟨p, o, ids', hp, fun turns p' hspawn => ?_⟩
  refine hcall (turns + 1) p' ?_
  cases remaining with
  | nil => exact absurd rfl hremaining
  | cons x remaining =>
      rw [spawnAll, List.map_id]
      exact hspawn

/-- Nothing is left, and the call has returned. -/
theorem Spawning.between (h : q.Spawning m []) : q.Between m := by
  obtain ⟨p, o, ids', hp, hcall⟩ := h
  have hstep : p.step (o, .subscribe ids') = some q := hcall 0 q rfl
  exact .step hp trivial hstep

-- =========================================================== unsubscribing

/-- The next worker is seen to, whose channel is closed or not. -/
theorem Removing.next (b : Bool) (h : q.Removing m ids (worker :: workers))
    {had : List String} (hhas : q.Has worker had)
    (hkeep : ∀ worker' ids', worker' ≠ worker → q.Has worker' ids' →
      q'.Has worker' ids')
    (hremove : ∀ closed, closed worker = b →
      removeFrom closed ids q (worker, had) = q') :
    q'.Removing m ids workers := by
  obtain ⟨es, hunseen, p, o, hp, hcall⟩ := h
  obtain ⟨es', rfl, hw, hunseen'⟩ := hunseen.tail hhas hkeep
  refine ⟨es', hunseen', p,
    { o with closed := Function.update o.closed worker b }, hp,
    fun closed hsettled => ?_⟩
  obtain ⟨hb, hsettled⟩ := hsettled.cons hw
  rw [hcall closed hsettled, List.foldl_cons, hremove closed hb]

/-- A worker is passed over: it has none of the ids, or is dead. -/
theorem Removing.pass (h : q.Removing m ids (worker :: workers))
    {had : List String} (hhas : q.Has worker had) (b : Bool)
    (hpass : (ids.filter fun id => id ∈ had) = [] ∨ b = true) :
    q.Removing m ids workers := by
  refine h.next b hhas (fun _ _ _ h => h) fun closed hb => ?_
  exact if_pos (hpass.imp_right fun htrue => hb.trans htrue)

/-- A worker drops the ids. -/
theorem Removing.sent (h : q.Removing m ids (worker :: workers))
    {had : List String} (hhas : q.Has worker had)
    (hsome : (ids.filter fun id => id ∈ had) ≠ []) :
    (q.set worker (had.filter
      fun id => id ∉ ids.filter fun id => id ∈ had)).Removing m ids
        workers := by
  refine h.next false hhas has_set_of_ne fun closed hopen => ?_
  refine if_neg (not_or.2 ⟨hsome, ?_⟩)
  rw [hopen]
  exact Bool.false_ne_true

/-- All workers are seen to, and the call has returned. -/
theorem Removing.between (h : q.Removing m ids []) : q.Between m := by
  obtain ⟨es, hunseen, p, o, hp, hcall⟩ := h
  obtain rfl : es = [] := List.map_eq_nil_iff.1 hunseen.keys
  have hq : p.unsubscribe o ids = q := by
    rw [unsubscribe_eq]
    exact hcall o.closed fun _ _ => rfl
  have hstep : p.step (o, .unsubscribe ids) = some q := congrArg some hq
  exact .step hp trivial hstep

-- ======================================================== where they begin

/-- The entries of the pool, in the order the workers are walked. -/
theorem exists_unseen (h : workers.Perm q.workers.keys) :
    ∃ order : IterOrder String (List String),
      q.Unseen workers (order.entries q.workers) := by
  obtain ⟨order, hkeys⟩ := IterOrder.exists_keys h
  refine ⟨order, hkeys, ?_, fun e he => ?_⟩
  · rw [← hkeys]
    exact order.nodup_keys q.workers
  · exact order.mem_entries.1 he

theorem Between.filling (hq : q.Between m)
    (h : workers.Perm q.workers.keys) (ids : List String) :
    q.Filling m (q.newIds ids) workers := by
  obtain ⟨order, hunseen⟩ := exists_unseen h
  exact ⟨_, hunseen, q, ⟨order, fun _ => false⟩, ids, hq,
    fun closed _ => rfl⟩

theorem Between.removing (hq : q.Between m)
    (h : workers.Perm q.workers.keys) (ids : List String) :
    q.Removing m ids workers := by
  obtain ⟨order, hunseen⟩ := exists_unseen h
  exact ⟨_, hunseen, q, ⟨order, fun _ => false⟩, hq, fun closed _ => rfl⟩

end Pool

-- ======================================================== what is recorded

namespace Supervisor

/-- The records of the supervisor, as a pool. -/
structure Shows (s : Supervisor) (q : Pool) : Prop where
  max : q.maxSubsPerWorker = s.maxSubsPerWorker
  counter : q.workerCounter = s.workerCounter
  workers : ∀ worker, q.workers.lookup worker
    = (s.workers.lookup worker).map (·.subscribedIds)

variable {s s' : Supervisor} {q : Pool} {worker : String}
  {handle : WorkerHandle} {call : Option Call}

theorem Shows.has (h : s.Shows q)
    (hlookup : s.workers.lookup worker = some handle) :
    q.Has worker handle.subscribedIds := by
  unfold Pool.Has
  rw [h.workers, hlookup, Option.map_some]

/-- The call goes on, and nothing is recorded. -/
theorem Shows.of_call (h : s.Shows q) : Shows { s with call := call } q :=
  ⟨h.max, h.counter, h.workers⟩

/-- A worker does something, or is sent something. -/
theorem Shows.set (h : s.Shows q)
    (hlookup : s.workers.lookup worker = some handle) (task : WsManager) :
    (s.set worker { handle with task := task }).Shows q := by
  refine ⟨h.max, h.counter, fun worker' => ?_⟩
  show _ = (AList.lookup worker' (s.workers.insert worker _)).map _
  rw [lookup_insert', h.workers]
  split
  · next heq => rw [heq, hlookup]; rfl
  · rfl

/-- What a worker is subscribed to is recorded. -/
theorem Shows.note (h : s.Shows q) (ids : List String) :
    (s.set worker { handle with subscribedIds := ids }).Shows
      (q.set worker ids) := by
  refine ⟨h.max, h.counter, fun worker' => ?_⟩
  show AList.lookup worker' (q.workers.insert worker _)
    = (AList.lookup worker' (s.workers.insert worker _)).map _
  rw [lookup_insert', lookup_insert', h.workers]
  split <;> rfl

theorem Shows.spawnWorker (h : s.Shows q) (ids : List String) :
    (s.spawnWorker ids).Shows (q.spawnWorker ids) := by
  refine ⟨h.max, congrArg (· + 1) h.counter, fun worker' => ?_⟩
  show AList.lookup worker' (q.workers.insert _ _)
    = (AList.lookup worker' (s.workers.insert _ _)).map _
  rw [lookup_insert', lookup_insert', h.workers, h.counter]
  have hid : Pool.workerId (s.workerCounter + 1)
      = s!"poly-worker-{s.workerCounter + 1}" := rfl
  rw [hid]
  split <;> rfl

theorem Shows.isSubscribed (h : s.Shows q) (id : String) :
    q.isSubscribed id = s.isSubscribed id := by
  rw [Bool.eq_iff_iff, Pool.isSubscribed_iff, Supervisor.isSubscribed,
    List.any_eq_true]
  simp only [mem_values, decide_eq_true_eq, Pool.Has, h.workers,
    Option.map_eq_some_iff]
  refine ⟨fun hq => ?_, fun hs => ?_⟩
  · obtain ⟨worker, -, ⟨handle, hlookup, rfl⟩, hid⟩ := hq
    exact ⟨handle, ⟨worker, hlookup⟩, hid⟩
  · obtain ⟨handle, ⟨worker, hlookup⟩, hid⟩ := hs
    exact ⟨worker, _, ⟨handle, hlookup, rfl⟩, hid⟩

theorem Shows.keys (h : s.Shows q) :
    q.workers.keys.Perm s.workers.keys := by
  refine (List.perm_ext_iff_of_nodup q.workers.keys_nodup
    s.workers.keys_nodup).2 fun worker => ?_
  rw [← AList.mem_keys, ← AList.mem_keys, ← AList.lookup_isSome,
    ← AList.lookup_isSome, h.workers, Option.isSome_map]

-- ========================================================== the simulation

/-- What the call in progress has yet to do with the pool. -/
def Pending (m : Nat) (q : Pool) : Option Call → Prop
  | none => q.Between m
  | some (.filling remaining workers) => q.Filling m remaining workers
  | some (.filled worker toAdd remaining workers) =>
      ∃ ids, q.Has worker ids
        ∧ (q.set worker (ids ++ toAdd)).Filling m remaining workers
  | some (.spawning remaining) => q.Spawning m remaining
  | some (.removing ids workers) => q.Removing m ids workers
  | some (.removed worker toRemove ids workers) =>
      ∃ had, q.Has worker had
        ∧ (q.set worker (had.filter fun id => id ∉ toRemove)).Removing m
          ids workers
  | some (.stopping _) => q.Between m
  | some .joining => q.Between m

/-- The records show a pool that the call in progress works on. -/
def Simulates (m : Nat) (s : Supervisor) : Prop :=
  ∃ q, s.Shows q ∧ Pending m q s.call

variable {m : Nat}

theorem simulates_resumed {call : Call} (h : s.Simulates m)
    (hcall : s.call = some call) (hresumed : s.Resumed call s') :
    s'.Simulates m := by
  obtain ⟨q, hshows, hpending⟩ := h
  rw [hcall] at hpending
  cases hresumed with
  | fillEnd => exact ⟨q, hshows.of_call, hpending.spawning⟩
  | fillPass hlookup hpass =>
      rw [← hshows.max] at hpass
      exact ⟨q, hshows.of_call, hpending.pass (hshows.has hlookup) hpass⟩
  | fillSend hlookup hremaining hroom htoAdd hrest hsend =>
      have hhas := hshows.has hlookup
      rw [← hshows.max] at hroom htoAdd hrest
      subst htoAdd hrest
      cases hsend with
      | sent hsend =>
          exact ⟨q, (hshows.set hlookup _).of_call, _, hhas,
            hpending.sent hhas hremaining hroom⟩
      | closed hsend =>
          exact ⟨q, hshows.of_call,
            hpending.closed hhas hremaining hroom⟩
  | fillNote hlookup =>
      obtain ⟨ids, hhas, hfilling⟩ := hpending
      obtain rfl := Option.some.inj
        ((hshows.has hlookup).symm.trans hhas)
      exact ⟨_, (hshows.note _).of_call, hfilling⟩
  | spawnEnd => exact ⟨q, hshows.of_call, hpending.between⟩
  | spawn hremaining =>
      refine ⟨_, (hshows.spawnWorker _).of_call, ?_⟩
      rw [← hshows.max]
      exact hpending.spawn hremaining
  | removeEnd => exact ⟨q, hshows.of_call, hpending.between⟩
  | removePass hlookup hnone =>
      exact ⟨q, hshows.of_call,
        hpending.pass (hshows.has hlookup) false (.inl hnone)⟩
  | removeSend hlookup htoRemove hsome hsend =>
      have hhas := hshows.has hlookup
      subst htoRemove
      cases hsend with
      | sent hsend =>
          exact ⟨q, (hshows.set hlookup _).of_call, _, hhas,
            hpending.sent hhas hsome⟩
      | closed hsend =>
          exact ⟨q, hshows.of_call, hpending.pass hhas true (.inr rfl)⟩
  | removeNote hlookup =>
      obtain ⟨had, hhas, hremoving⟩ := hpending
      obtain rfl := Option.some.inj
        ((hshows.has hlookup).symm.trans hhas)
      exact ⟨_, (hshows.note _).of_call, hremoving⟩
  | stopEnd => exact ⟨q, hshows.of_call, hpending⟩
  | stopSend hlookup hsend =>
      cases hsend with
      | sent hsend => exact ⟨q, (hshows.set hlookup _).of_call, hpending⟩
      | closed hsend => exact ⟨q, hshows.of_call, hpending⟩

variable {J : SerdeJson}

theorem simulates_step {action : Action} (h : s.Simulates m)
    (hstep : s.step J action = some s') : s'.Simulates m := by
  cases stepped_of_step hstep with
  | subscribe hidle hlists =>
      obtain ⟨q, hshows, hpending⟩ := h
      rw [hidle] at hpending
      refine ⟨q, hshows.of_call, ?_⟩
      have hnew : ∀ ids : List String,
          ids.filter (fun id => !s.isSubscribed id) = q.newIds ids :=
        fun ids => List.filter_congr fun id _ => by
          rw [hshows.isSubscribed]
      show q.Filling m (List.filter _ _) _
      rw [hnew]
      exact hpending.filling (hlists.trans hshows.keys.symm) _
  | unsubscribe hidle hlists =>
      obtain ⟨q, hshows, hpending⟩ := h
      rw [hidle] at hpending
      exact ⟨q, hshows.of_call,
        hpending.removing (hlists.trans hshows.keys.symm) _⟩
  | terminate hidle _ =>
      obtain ⟨q, hshows, hpending⟩ := h
      rw [hidle] at hpending
      exact ⟨q, hshows.of_call, hpending⟩
  | resume hcall hresumed => exact simulates_resumed h hcall hresumed
  | worker hlookup _ =>
      obtain ⟨q, hshows, hpending⟩ := h
      exact ⟨q, hshows.set hlookup _, hpending⟩

/-- The records of a supervisor that is in no call are a pool that whole
calls lead to. -/
theorem pool_of_reached
    (hrun : Reached (step J) (fun _ _ => True) (.new m) s)
    (hidle : s.call = none) : ∃ q, q.Between m ∧ s.Shows q := by
  have hstart : (new m).Simulates m :=
    ⟨.new m, ⟨rfl, rfl, fun _ => rfl⟩, .start⟩
  obtain ⟨q, hshows, hpending⟩ := hrun.invariant hstart
    fun _ _ _ ih _ hstep => simulates_step ih hstep
  rw [hidle] at hpending
  exact ⟨q, hpending, hshows⟩

/-- So no worker is recorded with more ids than there is room for. -/
theorem records_fit
    (hrun : Reached (step J) (fun _ _ => True) (.new m) s)
    (hidle : s.call = none)
    (hlookup : s.workers.lookup worker = some handle) :
    handle.subscribedIds.length ≤ m := by
  obtain ⟨q, hq, hshows⟩ := pool_of_reached hrun hidle
  have hsound := Pool.sound_of_reached hq
  rw [← hsound.max]
  exact hsound.fits worker _ (hshows.has hlookup)

end Supervisor

end Wup.Aggregator
