/-
What the reconnect loop remembers, and what it does not read.

The delay depends on the number of errors so far and on nothing else
(`delayAfter_eq`): a connection that was made in between does not bring it
back. So it is the delay of a backoff that starts over with every
connection only while there was none, or once both are at the maximum
(`sleeps_iff`).

Between two attempts the loop looks at no command. A shutdown that is
queued when an attempt ends in an error waits for an attempt that connects
(`shutdown_needs_connection`), and a supervisor that has given up its
workers' handles waits with it.
-/
import Wup.Aggregator.Reconnect
import Wup.Aggregator.Proofs.Steps

namespace Wup.Aggregator

open Polymarket
open Runs (Reached)

-- =============================================================== the delay

namespace WsManagerConfig

variable (config : WsManagerConfig)

/-- The delay after some number of errors, from one delay on; none after a
panic. -/
def delayAfter (reconnectDelay : Duration) : Nat → Option Duration
  | 0 => some reconnectDelay
  | n + 1 =>
      (reconnectDelay.mul 2).bind fun doubled =>
        delayAfter (doubled.min config.maxReconnectDelay) n

variable {config}

/-- What is slept after an error depends on how many there were before. -/
theorem sleepsFrom_getElem? (reconnectDelay : Duration)
    (before after : List Disconnect) (error : Disconnect) :
    (config.sleepsFrom reconnectDelay
        (before ++ error :: after))[before.length]?
      = config.delayAfter reconnectDelay before.length := by
  induction before generalizing reconnectDelay with
  | nil => rfl
  | cons e before ih =>
      rw [List.cons_append, List.length_cons, sleepsFrom,
        List.getElem?_cons_succ, delayAfter]
      cases reconnectDelay.mul 2 with
      | none => rfl
      | some doubled => exact ih _

/-- A bounded doubling is bounded by the same. -/
private theorem min_doubled (bound d j : Nat) :
    min bound (min (d * 2) bound * 2 ^ j) = min bound (d * 2 ^ (j + 1)) := by
  have hpow : 1 ≤ 2 ^ j := Nat.one_le_two_pow
  rcases Nat.le_total (d * 2) bound with h | h
  · rw [Nat.min_eq_left h, pow_succ, Nat.mul_assoc, Nat.mul_comm 2]
  · have hbound : bound ≤ bound * 2 ^ j := Nat.le_mul_of_pos_right _ hpow
    have hmul : bound * 2 ^ j ≤ d * 2 ^ (j + 1) := by
      rw [pow_succ, Nat.mul_comm (2 ^ j), ← Nat.mul_assoc]
      exact Nat.mul_le_mul_right _ h
    rw [Nat.min_eq_right h, Nat.min_eq_left hbound,
      Nat.min_eq_left (hbound.trans hmul)]

/-- The delay doubles up to the maximum, as long as no product is too
long. -/
theorem delayAfter_eq {reconnectDelay : Duration}
    (hle : reconnectDelay.nanos ≤ config.maxReconnectDelay.nanos) (n : Nat) :
    (config.delayAfter reconnectDelay n).map (·.nanos)
      = if ∀ j < n, 2 * min config.maxReconnectDelay.nanos
            (reconnectDelay.nanos * 2 ^ j) ≤ durationMax then
          some (min config.maxReconnectDelay.nanos
            (reconnectDelay.nanos * 2 ^ n))
        else none := by
  induction n generalizing reconnectDelay with
  | zero => simp [delayAfter, hle]
  | succ n ih =>
      rw [delayAfter, Duration.mul]
      by_cases hmul : reconnectDelay.nanos * 2 ≤ durationMax
      · have hmin : ∀ d : Duration, (d.min config.maxReconnectDelay).nanos
            = min d.nanos config.maxReconnectDelay.nanos := by
          intro d
          unfold Duration.min
          split <;> omega
        rw [dif_pos hmul, Option.bind_some, ih (by rw [hmin]; omega)]
        simp only [hmin, min_doubled]
        refine if_congr ⟨fun h j hj => ?_, fun h j hj => ?_⟩ rfl rfl
        · cases j with
          | zero => omega
          | succ j => exact h j (by omega)
        · exact h (j + 1) (by omega)
      · rw [dif_neg hmul, if_neg fun h => hmul ?_]
        · rfl
        · have hfirst := h 0 (by omega)
          simp only [pow_zero, Nat.mul_one, Nat.min_eq_right hle] at hfirst
          omega

theorem failuresSince_le (before : List Disconnect) (error : Disconnect) :
    failuresSince before error ≤ before.length := by
  cases error with
  | failed =>
      have hle := (List.takeWhile_prefix (l := before.reverse)
        (· = Disconnect.failed)).length_le
      rwa [List.length_reverse] at hle
  | dropped => exact Nat.zero_le _

/-- Two bounded doublings agree when they are the same, or both bounded, or
nothing is doubled. -/
private theorem min_pow_eq_iff {bound d k n : Nat} (hkn : k ≤ n) :
    min bound (d * 2 ^ n) = min bound (d * 2 ^ k)
      ↔ n = k ∨ bound ≤ d * 2 ^ k ∨ d = 0 := by
  have hmono : d * 2 ^ k ≤ d * 2 ^ n :=
    Nat.mul_le_mul_left _ (Nat.pow_le_pow_right (by omega) hkn)
  refine ⟨fun h => ?_, fun h => ?_⟩
  · by_contra hnot
    push Not at hnot
    obtain ⟨hne, hlt, hd⟩ := hnot
    have hpow : 2 ^ k < 2 ^ n :=
      Nat.pow_lt_pow_right (by omega) (by omega)
    have hstrict : d * 2 ^ k < d * 2 ^ n :=
      Nat.mul_lt_mul_of_pos_left hpow (Nat.pos_of_ne_zero hd)
    omega
  · rcases h with rfl | hbound | rfl
    · rfl
    · omega
    · simp

/-- The delay after an error is that of a backoff that starts over with
every connection exactly when there was no connection yet, or the delay
has reached the maximum again, and no product on the way was too long. -/
theorem sleeps_iff (config : WsManagerConfig)
    (hle : config.reconnectDelay.nanos ≤ config.maxReconnectDelay.nanos)
    (before after : List Disconnect) (error : Disconnect) :
    ((config.sleeps (before ++ error :: after))[before.length]?).map
        (·.nanos)
      = some (min config.maxReconnectDelay.nanos
          (config.reconnectDelay.nanos * 2 ^ failuresSince before error))
      ↔ (∀ j < before.length, 2 * min config.maxReconnectDelay.nanos
          (config.reconnectDelay.nanos * 2 ^ j) ≤ durationMax)
        ∧ (before.length = failuresSince before error
          ∨ config.maxReconnectDelay.nanos
            ≤ config.reconnectDelay.nanos * 2 ^ failuresSince before error
          ∨ config.reconnectDelay.nanos = 0) := by
  rw [sleeps, sleepsFrom_getElem?, delayAfter_eq hle]
  split
  · next hfits =>
      rw [Option.some.injEq, min_pow_eq_iff (failuresSince_le before error)]
      exact (and_iff_right hfits).symm
  · next hfits =>
      exact iff_of_false (fun h => nomatch h) fun h => hfits h.1

/-- Three failed attempts in a row. -/
theorem sleeps_three_failures :
    ((WsManagerConfig.default.sleeps [.failed, .failed, .failed])[2]?).map
      (·.nanos) = some (4 * 10 ^ 9) :=
  (sleeps_iff .default (by decide) [.failed, .failed] [] .failed).2
    ⟨by decide, Or.inl rfl⟩

/-- The second connection is lost, and the delay is not the first one. -/
theorem sleeps_longer_after_connection :
    ¬ ∀ (config : WsManagerConfig),
      config.reconnectDelay.nanos ≤ config.maxReconnectDelay.nanos →
      ∀ (before after : List Disconnect) (error : Disconnect),
        ((config.sleeps (before ++ error :: after))[before.length]?).map
            (·.nanos)
          = some (min config.maxReconnectDelay.nanos
              (config.reconnectDelay.nanos
                * 2 ^ failuresSince before error)) := by
  intro h
  have hsecond := h .default (by decide) [.dropped] [] .dropped
  revert hsecond
  decide

end WsManagerConfig

-- ============================================================ the shutdown

namespace Supervisor

variable (J : SerdeJson)

/-- Where a worker's task stands. -/
def phaseOf (s : Supervisor) (worker : String) : Option Phase :=
  (s.workers.lookup worker).map (·.task.phase)

/-- The worker can come to its end without another attempt to connect. -/
def EndsWithoutAttempt (worker : String) (s : Supervisor) : Prop :=
  ∃ s', Reached (step J) (fun _ action =>
      ∀ a, action = .worker worker a → ¬ a.IsAttempt) s s'
    ∧ s'.phaseOf worker = some .stopped

/-- The wait for the workers is over. -/
def Joined (s : Supervisor) : Prop :=
  s.call = some .joining
    ∧ ∀ worker handle, s.workers.lookup worker = some handle →
        handle.task.phase = .stopped

variable {J} {s s' : Supervisor} {worker : String}

theorem phaseOf_set (worker' : String) {handle : WorkerHandle}
    {old : WorkerHandle} (hold : s.workers.lookup worker' = some old)
    (hphase : handle.task.phase = old.task.phase) :
    (s.set worker' handle).phaseOf worker = s.phaseOf worker := by
  show (AList.lookup worker (s.workers.insert worker' handle)).map _ = _
  rw [HashMap.lookup_insert', phaseOf]
  split
  · next hw =>
      rw [hw, hold, Option.map_some, Option.map_some, hphase]
  · rfl

/-- A send to a worker does not move its task. -/
theorem phaseOf_sentTo {worker' : String} {handle : WorkerHandle}
    {cmd : ControlCommand} {next failed : Call}
    (hlookup : s.workers.lookup worker' = some handle)
    (hsend : s.SentTo worker' handle cmd next failed s') :
    s'.phaseOf worker = s.phaseOf worker := by
  cases hsend with
  | sent hsend =>
      exact phaseOf_set worker' hlookup (WsManager.phase_of_send hsend)
  | closed _ => rfl

theorem offline_resumed {call : Call}
    (h : s.phaseOf worker = some .offline)
    (hresumed : s.Resumed call s') :
    s'.phaseOf worker = some .offline := by
  cases hresumed with
  | fillEnd => exact h
  | fillPass _ _ => exact h
  | fillSend hlookup _ _ _ _ hsend => rwa [phaseOf_sentTo hlookup hsend]
  | fillNote hlookup =>
      show (s.set _ _).phaseOf worker = _
      refine (phaseOf_set _ hlookup ?_).trans h
      rfl
  | spawnEnd => exact h
  | spawn _ =>
      -- a new worker is offline too
      show (AList.lookup worker (s.workers.insert _ _)).map _ = _
      rw [HashMap.lookup_insert']
      split
      · rfl
      · exact h
  | removeEnd => exact h
  | removePass _ _ => exact h
  | removeSend hlookup _ _ hsend => rwa [phaseOf_sentTo hlookup hsend]
  | removeNote hlookup =>
      show (s.set _ _).phaseOf worker = _
      refine (phaseOf_set _ hlookup ?_).trans h
      rfl
  | stopEnd => exact h
  | stopSend hlookup hsend => rwa [phaseOf_sentTo hlookup hsend]

end Supervisor

-- ======================================================== between attempts

section Worker

variable {J : SerdeJson} {w w' : WsManager} {hungUp : Bool}
  {action : WorkerAction}

/-- Between two attempts there is nothing but another one. -/
theorem WsManager.isSome_step_offline (h : w.phase = .offline) :
    (w.step J hungUp action).isSome ↔ action.IsAttempt := by
  cases action with
  | connect =>
      refine iff_of_true ?_ trivial
      rw [WsManager.step, if_pos h]
      split <;> rfl
  | connectFails =>
      refine iff_of_true ?_ trivial
      rw [WsManager.step, if_pos h]
      rfl
  | written => simp [WsManager.step, WorkerAction.IsAttempt, h]
  | writeFails => simp [WsManager.step, WorkerAction.IsAttempt, h]
  | take => simp [WsManager.step, WorkerAction.IsAttempt, h]
  | handle => simp [WsManager.step, WorkerAction.IsAttempt, h]
  | drop => simp [WsManager.step, WorkerAction.IsAttempt, h]
  | closed => simp [WsManager.step, WorkerAction.IsAttempt, h]

/-- An attempt that fails changes nothing. -/
theorem WsManager.step_offline (h : w.phase = .offline)
    (hne : action ≠ .connect) (hstep : w.step J hungUp action = some w') :
    w' = w := by
  have hattempt : action.IsAttempt :=
    (isSome_step_offline h).1 (by rw [hstep]; rfl)
  cases stepped_of_step hstep with
  | connectSilent _ _ => exact absurd rfl hne
  | connectAsks _ _ => exact absurd rfl hne
  | connectFails _ => rfl
  | _ => exact hattempt.elim

/-- An error leaves the worker between two attempts. -/
theorem WsManager.offline_of_disconnect
    (hends : action.disconnect.isSome = true)
    (hstep : w.step J hungUp action = some w') : w'.phase = .offline := by
  cases stepped_of_step hstep with
  | connectFails hphase => exact hphase
  | writeFails _ => rfl
  | drop _ => rfl
  | _ => cases hends

end Worker

namespace Supervisor

variable {J : SerdeJson} {s s' : Supervisor} {worker : String}

/-- Without a connection a worker stays where it is. -/
theorem offline_step {action : Action}
    (h : s.phaseOf worker = some .offline)
    (hne : action ≠ .worker worker .connect)
    (hstep : s.step J action = some s') :
    s'.phaseOf worker = some .offline := by
  cases stepped_of_step hstep with
  | subscribe _ _ => exact h
  | unsubscribe _ _ => exact h
  | terminate _ _ => exact h
  | resume _ hresumed => exact offline_resumed h hresumed
  | @worker id a handle task hlookup htask =>
      by_cases hid : id = worker
      · subst hid
        rw [phaseOf, hlookup, Option.map_some, Option.some.injEq] at h
        have hsame : task = handle.task :=
          WsManager.step_offline h (fun ha => hne (by rw [ha])) htask
        rw [phaseOf_set id hlookup (congrArg _ hsame), phaseOf, hlookup,
          Option.map_some, h]
      · show (AList.lookup worker (s.workers.insert id _)).map _ = _
        rw [AList.lookup_insert_ne (Ne.symm hid)]
        exact h

/-- A run without a connection of the worker leaves it where it is. -/
theorem offline_of_reached (h : s.phaseOf worker = some .offline)
    (hrun : Reached (step J)
      (fun _ action => action ≠ .worker worker .connect) s s') :
    s'.phaseOf worker = some .offline :=
  hrun.invariant h fun _ _ _ ih hne hstep => offline_step ih hne hstep

/-- A worker between two attempts does not end without another. -/
theorem not_endsWithoutAttempt (h : s.phaseOf worker = some .offline) :
    ¬ s.EndsWithoutAttempt J worker := by
  rintro ⟨s', hrun, hstopped⟩
  have hstays := offline_of_reached h (hrun.mono fun _ action hno => by
    rintro rfl
    exact hno .connect rfl trivial)
  rw [hstopped] at hstays
  cases hstays

/-- A worker whose attempt ended in an error while a shutdown was first in
its queue does not end without another attempt: another attempt is all it
can do next, and until one connects the supervisor waits. -/
theorem shutdown_needs_connection {action : WorkerAction}
    {cmds : List ControlCommand}
    (hstep : s.step J (.worker worker action) = some s')
    (hends : action.disconnect.isSome = true)
    (hqueued : (s'.workers.lookup worker).map (·.task.commandRx)
      = some (.shutdown :: cmds)) :
    ¬ s'.EndsWithoutAttempt J worker
      ∧ (∀ a, (s'.step J (.worker worker a)).isSome ↔ a.IsAttempt)
      ∧ ∀ s'', Reached (step J)
          (fun _ action => action ≠ .worker worker .connect) s' s'' →
        ¬ s''.Joined := by
  obtain ⟨handle, hlookup, -⟩ := Option.map_eq_some_iff.1 hqueued
  have hoffline : handle.task.phase = .offline := by
    cases stepped_of_step hstep with
    | worker _ htask =>
      have hsame : some _ = some handle :=
        (AList.lookup_insert s.workers).symm.trans hlookup
      obtain rfl := Option.some.inj hsame
      exact WsManager.offline_of_disconnect hends htask
  have hphase : s'.phaseOf worker = some .offline := by
    rw [phaseOf, hlookup, Option.map_some, hoffline]
  refine ⟨not_endsWithoutAttempt hphase, fun a => ?_,
    fun s'' hrun hjoined => ?_⟩
  · rw [← WsManager.isSome_step_offline (J := J) hoffline]
    unfold step
    simp only [hlookup, Option.isSome_map]
    exact Iff.rfl
  · have hstays := offline_of_reached hphase hrun
    obtain ⟨handle', hlookup', hphase'⟩ := Option.map_eq_some_iff.1 hstays
    rw [hjoined.2 worker handle' hlookup'] at hphase'
    cases hphase'

/-- An exchange that cannot be reached when the supervisor is told to
stop. -/
private theorem exists_unreachable :
    ∃ s s', Reached (step compactJson) (fun _ _ => True) (.new 50) s
      ∧ s.step compactJson (.worker "poly-worker-1" .connectFails) = some s'
      ∧ s'.call = some .joining
      ∧ (s'.workers.lookup "poly-worker-1").map (·.task.commandRx)
        = some [.shutdown]
      ∧ s'.phaseOf "poly-worker-1" = some .offline := by
  obtain ⟨s, hreached, hfails⟩ :
      ∃ s, Reached (step compactJson) (fun _ _ => True) (.new 50) s
        ∧ (s.step compactJson (.worker "poly-worker-1" .connectFails)).any
          (fun s' => decide (s'.call = some .joining
            ∧ (s'.workers.lookup "poly-worker-1").map (·.task.commandRx)
              = some [.shutdown]
            ∧ s'.phaseOf "poly-worker-1" = some .offline)) = true :=
    Runs.exists_reached
      [.subscribe ["a"] [], .resume, .resume, .resume,
        .terminate ["poly-worker-1"], .resume, .resume]
      (by decide +kernel)
  obtain ⟨s', hstep, hs'⟩ := (Option.any_eq_true _ _).1 hfails
  exact ⟨s, s', hreached, hstep, of_decide_eq_true hs'⟩

/-- The supervisor waits for the exchange. -/
theorem shutdown_needs_connection_unreachable :
    ∃ s, Reached (step compactJson) (fun _ _ => True) (.new 50) s
      ∧ s.call = some .joining
      ∧ (s.workers.lookup "poly-worker-1").map (·.task.commandRx)
        = some [.shutdown]
      ∧ ∀ s', Reached (step compactJson)
          (fun _ action => action ≠ .worker "poly-worker-1" .connect) s s' →
        ¬ s'.Joined := by
  obtain ⟨s, s', hreached, hstep, hcall, hqueued, -⟩ := exists_unreachable
  exact ⟨s', hreached.step trivial hstep, hcall, hqueued,
    (shutdown_needs_connection hstep rfl hqueued).2.2⟩

/-- The worker does not end, although its shutdown is the next command to
take. -/
theorem worker_survives_shutdown :
    ¬ ∀ (s s' : Supervisor) (worker : String) (action : WorkerAction)
      (cmds : List ControlCommand),
      Reached (step compactJson) (fun _ _ => True) (.new 50) s →
      s.step compactJson (.worker worker action) = some s' →
      action.disconnect.isSome = true →
      (s'.workers.lookup worker).map (·.task.commandRx)
        = some (.shutdown :: cmds) →
      s'.EndsWithoutAttempt compactJson worker := by
  obtain ⟨s, s', hreached, hstep, -, hqueued, hphase⟩ := exists_unreachable
  intro h
  exact not_endsWithoutAttempt hphase
    (h s s' "poly-worker-1" .connectFails [] hreached hstep rfl hqueued)

end Supervisor

end Wup.Aggregator
