/-
Runs of a system that takes one step at a time.

A step is a partial function of the state and the action taken; a run may
be restricted to steps that a condition `P` on both allows. `Reached` is
the states the allowed runs lead to and carries the induction
(`Reached.invariant`). `run` computes where a given list of actions leads
and whether the condition allowed all of them; what it finds is reached
(`reached_of_run`).
-/
import Mathlib.Logic.Basic

namespace Wup.Runs

variable {State Action : Type*} (step : State → Action → Option State)
  (P : State → Action → Prop)

/-- The states the runs from `s₀` lead to whose steps `P` allows. -/
inductive Reached (s₀ : State) : State → Prop
  | start : Reached s₀ s₀
  | step {s s' : State} {action : Action} :
      Reached s₀ s → P s action → step s action = some s' → Reached s₀ s'

/-- Take several steps, all allowed by `P`. -/
def run [∀ s action, Decidable (P s action)] (s : State) :
    List Action → Option State
  | [] => some s
  | action :: actions =>
      if P s action then
        match step s action with
        | some s' => run s' actions
        | none => none
      else none

variable {step P}

/-- What holds at the start and is kept by every allowed step holds of
every state reached. -/
theorem Reached.invariant {I : State → Prop} {s₀ s : State}
    (hrun : Reached step P s₀ s) (hstart : I s₀)
    (hstep : ∀ s action s', I s → P s action → step s action = some s' →
      I s') : I s := by
  induction hrun with
  | start => exact hstart
  | step _ hallowed htaken ih => exact hstep _ _ _ ih hallowed htaken

/-- What allows more leads at least as far. -/
theorem Reached.mono {Q : State → Action → Prop}
    (hPQ : ∀ s action, P s action → Q s action) {s₀ s : State}
    (hrun : Reached step P s₀ s) : Reached step Q s₀ s := by
  induction hrun with
  | start => exact .start
  | step _ hallowed htaken ih => exact .step ih (hPQ _ _ hallowed) htaken

/-- A step can be taken before a run as well as after it. -/
theorem Reached.head {s₀ s₁ s : State} {action : Action}
    (hallowed : P s₀ action) (htaken : step s₀ action = some s₁)
    (hrun : Reached step P s₁ s) : Reached step P s₀ s := by
  induction hrun with
  | start => exact .step .start hallowed htaken
  | step _ hallowed' htaken' ih => exact .step ih hallowed' htaken'

/-- What a run finds is reached. -/
theorem reached_of_run [∀ s action, Decidable (P s action)] {s₀ s : State}
    {actions : List Action} (h : run step P s₀ actions = some s) :
    Reached step P s₀ s := by
  induction actions generalizing s₀ with
  | nil =>
      obtain rfl := Option.some.inj h
      exact .start
  | cons action actions ih =>
      unfold run at h
      split at h
      · next hallowed =>
          split at h
          · next s₁ htaken => exact .head hallowed htaken (ih h)
          · cases h
      · cases h

/-- A run that ends in a state with a property reaches such a state. -/
theorem exists_reached [∀ s action, Decidable (P s action)]
    {Q : State → Prop} [DecidablePred Q] {s₀ : State}
    (actions : List Action)
    (h : (run step P s₀ actions).any (fun s => decide (Q s)) = true) :
    ∃ s, Reached step P s₀ s ∧ Q s := by
  obtain ⟨s, hrun, hs⟩ := (Option.any_eq_true _ _).1 h
  exact ⟨s, reached_of_run hrun, of_decide_eq_true hs⟩

end Wup.Runs
