/-
No schedule keeps messages on their way for ever.

# The measure

Every message of a frame is moved on at most four times: it is published,
processed, and what it is answered with is taken by the cache and by the
router. `backlog` prices what waits with the moves it still needs. A frame
adds four for each of its messages, a move takes at least one away and
nothing else changes it (`backlog_step`): so a run has at most four moves
for each message the frames became, however the parties take turns.

# What this closes

As long as anything waits, except for a cache that has blocked itself,
some party can move it on (`idle_or_moves`). Together: once the exchange
is silent, every schedule comes to rest (`messages_move_on`).
-/
import Mathlib.Algebra.BigOperators.Group.Finset.Piecewise
import Mathlib.Data.Finset.Basic
import Wup.Wire.Proofs.Sequence

namespace Wup

open Polymarket.PolymarketHandler (onMessage)

namespace Pipeline

variable {D : RustDecimal} {J : SerdeJson} {nats : Nats}
  {service : OrderbookService}
  {Worker : Type} [DecidableEq Worker] {s s' : Pipeline Worker}
  {action : PipelineAction Worker}

-- ============================================================= the measure

/-- The step moves a message on, or loses it. -/
def Moves : PipelineAction Worker → Bool
  | .frame .. => false
  | .socket _ => false
  | _ => true

/-- How many messages a frame becomes. -/
def heard (J : SerdeJson) : PipelineAction Worker → Nat
  | .frame _ orders normalizedAt receivedAt msg =>
      (onMessage J orders normalizedAt receivedAt msg).length
  | _ => 0

/-- The connection that receives a frame. -/
def speaker : PipelineAction Worker → Option Worker
  | .frame worker .. => some worker
  | _ => none

/-- How often what waits is still to be moved on. -/
def backlog (workers : Finset Worker) (s : Pipeline Worker) : Nat :=
  4 * ∑ worker ∈ workers, (s.outbox worker).length
    + 3 * s.normalized.length + s.toExecutor.length + s.toGateway.length

/-- Nobody else has anything to publish. -/
def Among (workers : Finset Worker) (s : Pipeline Worker) : Prop :=
  ∀ worker, worker ∉ workers → s.outbox worker = []

theorem sum_update {workers : Finset Worker} {worker : Worker}
    (hworker : worker ∈ workers) (outbox : Worker → List Publication)
    (pubs : List Publication) :
    ∑ w ∈ workers, (Function.update outbox worker pubs w).length
        + (outbox worker).length
      = ∑ w ∈ workers, (outbox w).length + pubs.length := by
  have hlengths : (fun w => (Function.update outbox worker pubs w).length)
      = Function.update (fun w => (outbox w).length) worker pubs.length := by
    funext w
    exact Function.apply_update (fun _ => List.length) outbox worker pubs w
  rw [hlengths, Finset.sum_update_of_mem hworker,
    ← Finset.add_sum_erase workers (fun w => (outbox w).length) hworker,
    Finset.sdiff_singleton_eq_erase]
  omega

theorem Among.update {workers : Finset Worker} {worker : Worker}
    (h : Among workers s) (hworker : worker ∈ workers)
    (pubs : List Publication) (w : Worker) (hw : w ∉ workers) :
    Function.update s.outbox worker pubs w = [] := by
  have hne : w ≠ worker := by
    rintro rfl
    exact hw hworker
  rw [Function.update_of_ne hne]
  exact h w hw

theorem Among.mem {workers : Finset Worker} {worker : Worker}
    {pub : Publication} {rest : List Publication} (h : Among workers s)
    (hout : s.outbox worker = pub :: rest) : worker ∈ workers := by
  by_contra hnot
  cases (h worker hnot).symm.trans hout

theorem length_deliver_le (nats : Nats) (pattern : String)
    (queue : List Publication) (pub : Publication) :
    (deliver nats pattern queue pub).length ≤ queue.length + 1 := by
  unfold deliver
  split
  · rw [List.length_append, List.length_singleton]
  · omega

theorem length_foldl_deliver_le (nats : Nats) (pattern : String)
    (queue pubs : List Publication) :
    (pubs.foldl (deliver nats pattern) queue).length
      ≤ queue.length + pubs.length := by
  induction pubs generalizing queue with
  | nil => exact le_rfl
  | cons pub pubs ih =>
      have hone := length_deliver_le nats pattern queue pub
      have hrest := ih (deliver nats pattern queue pub)
      rw [List.foldl_cons, List.length_cons]
      omega

-- ================================================================== a step

/-- The service publishes at most one event for a message. -/
theorem backlog_process {workers : Finset Worker} {now : Int} {sent : Bool}
    (hamong : Among workers s)
    (h : step D J nats service s (.process now sent) = some s') :
    Among workers s' ∧ backlog workers s' + 1 ≤ backlog workers s := by
  obtain ⟨outbox, normalized, store, toExecutor, cache, blocked,
    toGateway, registry⟩ := s
  cases normalized with
  | nil => cases h
  | cons pub rest =>
      obtain rfl := Option.some.inj h
      refine ⟨hamong, ?_⟩
      generalize hpubs : (if sent then
        (service.processPayload D J store pub.payload now).2.toList
        else []) = published
      have hone : published.length ≤ 1 := by
        rw [← hpubs]
        split
        · cases (service.processPayload D J store pub.payload now).2
            <;> simp
        · simp
      have hexecutor := length_foldl_deliver_le nats bboCacheSubject
        toExecutor published
      have hgateway := length_foldl_deliver_le nats routerSubject
        toGateway published
      simp only [backlog, List.length_cons]
      omega

/-- What a step does to the backlog. -/
theorem backlog_step {workers : Finset Worker} (hamong : Among workers s)
    (hspeaker : ∀ worker, speaker action = some worker → worker ∈ workers)
    (h : step D J nats service s action = some s') :
    Among workers s'
      ∧ backlog workers s' + (if Moves action then 1 else 0)
        ≤ backlog workers s + 4 * heard J action := by
  cases action with
  | frame worker orders normalizedAt receivedAt msg =>
      obtain ⟨hempty, hafter⟩ := Option.ite_none_right_eq_some.1 h
      obtain rfl := Option.some.inj hafter
      have hworker := hspeaker worker rfl
      refine ⟨hamong.update hworker _, ?_⟩
      have hsum := sum_update hworker s.outbox
        (onMessage J orders normalizedAt receivedAt msg)
      rw [hempty, List.length_nil] at hsum
      simp only [backlog, Moves, heard, Bool.false_eq_true, if_false]
      omega
  | publish worker =>
      cases hout : s.outbox worker with
      | nil =>
          simp only [step, hout] at h
          cases h
      | cons pub rest =>
          simp only [step, hout] at h
          obtain rfl := Option.some.inj h
          have hworker := hamong.mem hout
          refine ⟨hamong.update hworker _, ?_⟩
          have hsum := sum_update hworker s.outbox rest
          have hqueue := length_deliver_le nats orderbookServiceSubject
            s.normalized pub
          rw [hout, List.length_cons] at hsum
          simp only [backlog, Moves, heard, if_true]
          omega
  | publishFails worker =>
      cases hout : s.outbox worker with
      | nil =>
          simp only [step, hout] at h
          cases h
      | cons pub rest =>
          simp only [step, hout] at h
          obtain rfl := Option.some.inj h
          have hworker := hamong.mem hout
          refine ⟨hamong.update hworker _, ?_⟩
          have hsum := sum_update hworker s.outbox []
          rw [hout, List.length_cons, List.length_nil] at hsum
          simp only [backlog, Moves, heard, if_true]
          omega
  | process now sent =>
      obtain ⟨hamong', hbacklog⟩ := backlog_process hamong h
      exact ⟨hamong', hbacklog⟩
  | cache =>
      obtain ⟨outbox, normalized, store, toExecutor, cache, blocked,
        toGateway, registry⟩ := s
      cases toExecutor with
      | nil => cases h
      | cons pub rest =>
          obtain ⟨-, hafter⟩ := Option.ite_none_left_eq_some.1 h
          obtain rfl := Option.some.inj hafter
          refine ⟨hamong, ?_⟩
          simp only [backlog, Moves, heard, if_true, List.length_cons]
          omega
  | route =>
      obtain ⟨outbox, normalized, store, toExecutor, cache, blocked,
        toGateway, registry⟩ := s
      cases toGateway with
      | nil => cases h
      | cons pub rest =>
          obtain rfl := Option.some.inj h
          refine ⟨hamong, ?_⟩
          simp only [backlog, Moves, heard, if_true, List.length_cons]
          omega
  | socket action =>
      obtain ⟨-, hafter⟩ := Option.ite_none_left_eq_some.1 h
      obtain ⟨registry, -, rfl⟩ := Option.map_eq_some_iff.1 hafter
      refine ⟨hamong, ?_⟩
      simp only [backlog, Moves, heard, Bool.false_eq_true, if_false]
      omega

-- ================================================================ the runs

/-- How many messages the frames of a run became. -/
def heardIn (J : SerdeJson) (actions : List (PipelineAction Worker)) : Nat :=
  (actions.map (heard J)).sum

theorem run_concat {actions : List (PipelineAction Worker)} :
    run D J nats service (actions ++ [action])
      = (run D J nats service actions).bind fun s =>
          step D J nats service s action := by
  unfold run
  rw [List.foldlM_append]
  cases actions.foldlM (step D J nats service) start with
  | none => rfl
  | some s => simp

/-- The moves of a run, and those still to come. -/
theorem backlog_run {workers : Finset Worker}
    {actions : List (PipelineAction Worker)}
    (hspeakers : ∀ action ∈ actions, ∀ worker,
      speaker action = some worker → worker ∈ workers)
    (h : run D J nats service actions = some s) :
    Among workers s
      ∧ actions.countP Moves + backlog workers s
        ≤ 4 * heardIn J actions := by
  induction actions using List.reverseRecOn generalizing s with
  | nil =>
      obtain rfl := Option.some.inj h
      exact ⟨fun _ _ => rfl, by simp [backlog, start, heardIn]⟩
  | append_singleton actions action ih =>
      rw [run_concat] at h
      obtain ⟨s₁, hs₁, hstep⟩ := Option.bind_eq_some_iff.1 h
      obtain ⟨hamong, hmoves⟩ :=
        ih (fun a ha => hspeakers a (List.mem_append_left _ ha)) hs₁
      obtain ⟨hamong', hbacklog⟩ := backlog_step hamong
        (hspeakers action (List.mem_append_right _ List.mem_cons_self)) hstep
      refine ⟨hamong', ?_⟩
      have hheard : heardIn J (actions ++ [action])
          = heardIn J actions + heard J action := by
        simp [heardIn]
      rw [List.countP_append, List.countP_singleton, hheard]
      omega

-- ================================================================= at rest

/-- Nothing is on its way, but to a cache that has blocked itself. -/
structure Idle (s : Pipeline Worker) : Prop where
  outbox : ∀ worker, s.outbox worker = []
  normalized : s.normalized = []
  toExecutor : s.toExecutor = [] ∨ s.blocked = true
  toGateway : s.toGateway = []

/-- As long as anything is, some party can move it on. -/
theorem idle_or_moves (D : RustDecimal) (J : SerdeJson) (nats : Nats)
    (service : OrderbookService) (s : Pipeline Worker) :
    Idle s ∨ ∃ action, Moves action = true ∧ Sends action
      ∧ (step D J nats service s action).isSome = true := by
  by_cases houtbox : ∀ worker, s.outbox worker = []
  · obtain ⟨outbox, normalized, store, toExecutor, cache, blocked,
      toGateway, registry⟩ := s
    cases normalized with
    | cons pub rest => exact .inr ⟨.process 0 true, rfl, rfl, rfl⟩
    | nil =>
        cases toGateway with
        | cons pub rest => exact .inr ⟨.route, rfl, trivial, rfl⟩
        | nil =>
            cases toExecutor with
            | nil => exact .inl ⟨houtbox, rfl, .inl rfl, rfl⟩
            | cons pub rest =>
                cases blocked with
                | true => exact .inl ⟨houtbox, rfl, .inr rfl, rfl⟩
                | false => exact .inr ⟨.cache, rfl, trivial, rfl⟩
  · obtain ⟨worker, hworker⟩ := not_forall.1 houtbox
    refine .inr ⟨.publish worker, rfl, trivial, ?_⟩
    cases hout : s.outbox worker with
    | nil => exact absurd hout hworker
    | cons pub rest =>
        simp only [step, hout]
        rfl

/-- From anywhere the parties can come to rest without a failure. -/
theorem exists_idle {workers : Finset Worker}
    {actions : List (PipelineAction Worker)}
    (hspeakers : ∀ action ∈ actions, ∀ worker,
      speaker action = some worker → worker ∈ workers)
    (h : run D J nats service actions = some s) :
    ∃ more s', (∀ action ∈ more, Moves action = true ∧ Sends action)
      ∧ run D J nats service (actions ++ more) = some s' ∧ Idle s' := by
  -- on the backlog, which every move makes smaller
  induction hsize : backlog workers s using Nat.strong_induction_on
    generalizing actions s with
  | _ size ih =>
      rcases idle_or_moves D J nats service s with hidle | hmoves
      · exact ⟨[], s, nofun, by rwa [List.append_nil], hidle⟩
      · obtain ⟨action, hmove, hsends, hsome⟩ := hmoves
        obtain ⟨s₁, hstep⟩ := Option.isSome_iff_exists.1 hsome
        have hspeaker : speaker action = none := by
          cases action with
          | frame => cases hmove
          | _ => rfl
        have hheard : heard J action = 0 := by
          cases action with
          | frame => cases hmove
          | _ => rfl
        obtain ⟨hamong, -⟩ := backlog_run hspeakers h
        obtain ⟨-, hbacklog⟩ := backlog_step hamong
          (fun worker hworker => nomatch hspeaker.symm.trans hworker) hstep
        rw [hmove, if_pos rfl, hheard] at hbacklog
        have hrun :
            run D J nats service (actions ++ [action]) = some s₁ := by
          rw [run_concat, h]
          exact hstep
        have hspeakers' : ∀ a ∈ actions ++ [action], ∀ worker,
            speaker a = some worker → worker ∈ workers := by
          intro a ha worker hworker
          rcases List.mem_append.1 ha with hold | hnew
          · exact hspeakers a hold worker hworker
          · rw [List.mem_singleton.1 hnew, hspeaker] at hworker
            cases hworker
        obtain ⟨more, s', hmore, hrun', hidle⟩ :=
          ih (backlog workers s₁) (by omega) hspeakers' hrun rfl
        refine ⟨action :: more, s', ?_, ?_, hidle⟩
        · exact List.forall_mem_cons.2 ⟨⟨hmove, hsends⟩, hmore⟩
        · rwa [List.append_assoc] at hrun'

/-- In every run there are at most four moves for each message the frames
became, however NATS matches subjects; what is still on its way can be moved
on by some party; and from wherever the run has led, the parties can come to
rest without a failure. -/
theorem messages_move_on {actions : List (PipelineAction Worker)}
    (h : run D J nats service actions = some s) :
    actions.countP Moves ≤ 4 * heardIn J actions
      ∧ (Idle s ∨ ∃ action, Moves action = true ∧ Sends action
        ∧ (step D J nats service s action).isSome = true)
      ∧ ∃ more s', (∀ action ∈ more, Moves action = true ∧ Sends action)
        ∧ run D J nats service (actions ++ more) = some s' ∧ Idle s' := by
  have hspeakers : ∀ action ∈ actions, ∀ worker,
      speaker action = some worker →
        worker ∈ (actions.filterMap speaker).toFinset := by
    intro action haction worker hworker
    rw [List.mem_toFinset]
    exact List.mem_filterMap.2 ⟨action, haction, hworker⟩
  obtain ⟨-, hmoves⟩ := backlog_run hspeakers h
  exact ⟨by omega, idle_or_moves D J nats service s, exists_idle hspeakers h⟩

/-- One frame, all the way. -/
theorem messages_move_on_one_frame :
    ∃ s, run fixedPoint compactJson simpleNats ⟨none, true⟩ oneFrame = some s
      ∧ oneFrame.countP Moves ≤ 4 * heardIn compactJson oneFrame := by
  obtain ⟨s, hs, -⟩ := oneFrame_runs
  exact ⟨s, hs, (messages_move_on hs).1⟩

end Pipeline

end Wup
