/-
Stages connected by queues.

A stage takes inputs one at a time; an input may use up the next message
of the stage's queue (`takes`), and a step may put out messages for the
stages behind it. Stages run at their own pace: a queue holds what was
produced and not yet taken.

`Fed` is the state of a stage within such a system: all that was produced
for it is what its inputs so far took, in order, and then what waits. It
is kept by whatever the parties do (`produce`, `consume`, `other`), so a
stage whose queue has run dry is where its own run over all that was
produced leads (`drained`), however the parties took turns.
-/
import Mathlib.Data.List.Basic
import Mathlib.Data.Option.Basic

namespace Wup

/-- A stage: which message an input uses up, and what it does. -/
structure Stage (S M I O : Type*) where
  takes : I → Option M
  step : S → I → Option (S × List O)

namespace Stage

variable {S M I O : Type*} (stage : Stage S M I O)

/-- Take several inputs; the state afterwards and all that was put out. -/
def run (s : S) : List I → Option (S × List O)
  | [] => some (s, [])
  | i :: is =>
      (stage.step s i).bind fun r =>
        (run r.1 is).map fun r' => (r'.1, r.2 ++ r'.2)

/-- The messages a list of inputs uses up. -/
def taken (is : List I) : List M := is.filterMap stage.takes

/-- What was produced for the stage is what its inputs took and then what
waits; its state and output are those of its run, whose inputs `P`
allows. -/
def Fed (P : I → Prop) (s₀ : S) (produced waiting : List M) (s : S)
    (out : List O) : Prop :=
  ∃ is, (∀ i ∈ is, P i) ∧ stage.run s₀ is = some (s, out)
    ∧ produced = stage.taken is ++ waiting

variable {stage}

/-- One more input at the end. -/
theorem run_concat {s₀ s s' : S} {is : List I} {i : I} {out out' : List O}
    (h : stage.run s₀ is = some (s, out))
    (hstep : stage.step s i = some (s', out')) :
    stage.run s₀ (is ++ [i]) = some (s', out ++ out') := by
  induction is generalizing s₀ out with
  | nil =>
      obtain ⟨rfl, rfl⟩ := Prod.mk.inj (Option.some.inj h)
      simp [run, hstep]
  | cons j is ih =>
      obtain ⟨r, hr, hrest⟩ := Option.bind_eq_some_iff.1 h
      obtain ⟨r', hr', hpair⟩ := Option.map_eq_some_iff.1 hrest
      obtain ⟨rfl, rfl⟩ := Prod.mk.inj hpair
      rw [List.cons_append, run, hr, Option.bind_some, ih hr',
        Option.map_some, List.append_assoc]

namespace Fed

variable {P : I → Prop} {s₀ s s' : S} {produced waiting : List M}
  {out out' : List O}

theorem start (P : I → Prop) (s₀ : S) : stage.Fed P s₀ [] [] s₀ [] :=
  ⟨[], nofun, rfl, rfl⟩

/-- More is produced. -/
theorem produce (h : stage.Fed P s₀ produced waiting s out) (ms : List M) :
    stage.Fed P s₀ (produced ++ ms) (waiting ++ ms) s out := by
  obtain ⟨is, hall, hrun, hproduced⟩ := h
  refine ⟨is, hall, hrun, ?_⟩
  rw [hproduced, List.append_assoc]

/-- The stage takes the next message. -/
theorem consume {m : M} {i : I}
    (h : stage.Fed P s₀ produced (m :: waiting) s out)
    (htakes : stage.takes i = some m) (hi : P i)
    (hstep : stage.step s i = some (s', out')) :
    stage.Fed P s₀ produced waiting s' (out ++ out') := by
  obtain ⟨is, hall, hrun, hproduced⟩ := h
  refine ⟨is ++ [i], ?_, run_concat hrun hstep, ?_⟩
  · rw [List.forall_mem_append]
    exact ⟨hall, List.forall_mem_singleton.2 hi⟩
  · rw [hproduced, taken, taken, List.filterMap_append,
      List.filterMap_cons_some htakes, List.filterMap_nil,
      List.append_assoc, List.singleton_append]

/-- The stage moves without taking a message. -/
theorem other {i : I} (h : stage.Fed P s₀ produced waiting s out)
    (htakes : stage.takes i = none) (hi : P i)
    (hstep : stage.step s i = some (s', out')) :
    stage.Fed P s₀ produced waiting s' (out ++ out') := by
  obtain ⟨is, hall, hrun, hproduced⟩ := h
  refine ⟨is ++ [i], ?_, run_concat hrun hstep, ?_⟩
  · rw [List.forall_mem_append]
    exact ⟨hall, List.forall_mem_singleton.2 hi⟩
  · rw [hproduced, taken, taken, List.filterMap_append,
      List.filterMap_cons_none htakes, List.filterMap_nil,
      List.append_nil]

/-- With nothing waiting, the stage has run over all that was produced. -/
theorem drained (h : stage.Fed P s₀ produced [] s out) :
    ∃ is, (∀ i ∈ is, P i) ∧ stage.run s₀ is = some (s, out)
      ∧ stage.taken is = produced := by
  obtain ⟨is, hall, hrun, hproduced⟩ := h
  exact ⟨is, hall, hrun, by rw [hproduced, List.append_nil]⟩

end Fed

end Stage

end Wup
