/-
Guards into locked maps, as one thread takes them.

A lookup that finds its key leaves a guard into the map alive until the
guard is dropped. A write to the map waits until no guard into it is
alive. When the writing thread holds one itself, nobody can drop it, and
the write never returns.

`Access.play` plays a thread's accesses on the number of guards it holds
into each map, and ends in `none` at a write that never returns
(`writesUnderGuard_iff`).
-/
import Mathlib.Logic.Function.Basic

namespace Wup

/-- An access to one of the maps `κ`. -/
inductive Access (κ : Type)
  /-- A lookup that finds its key: a guard is alive. -/
  | get (map : κ)
  /-- The guard goes out of scope. -/
  | drop (map : κ)
  /-- An operation that takes the map's write lock. -/
  | write (map : κ)
deriving DecidableEq, Repr

namespace Access

variable {κ : Type} [DecidableEq κ]

/-- No guard alive. -/
def noGuards : κ → Nat := fun _ => 0

/-- One access, on the number of guards held into each map. -/
def perform (held : κ → Nat) : Access κ → Option (κ → Nat)
  | .get map => some (Function.update held map (held map + 1))
  | .drop map => some (Function.update held map (held map - 1))
  | .write map => if held map = 0 then some held else none

/-- The guards held after some accesses, unless one never returns. -/
def play : (κ → Nat) → List (Access κ) → Option (κ → Nat)
  | held, [] => some held
  | held, a :: as => (perform held a).bind fun held => play held as

/-- A write happens while a guard into the same map is alive. -/
def WritesUnderGuard (as : List (Access κ)) : Prop :=
  ∃ before map after held, as = before ++ .write map :: after
    ∧ play noGuards before = some held ∧ 0 < held map

@[simp] theorem play_nil (held : κ → Nat) : play held [] = some held := rfl

@[simp] theorem play_cons (held : κ → Nat) (a : Access κ)
    (as : List (Access κ)) :
    play held (a :: as)
      = (perform held a).bind fun held => play held as := rfl

theorem perform_write_eq_none {held : κ → Nat} {map : κ} :
    perform held (.write map) = none ↔ 0 < held map := by
  simp [perform, Nat.pos_iff_ne_zero]

theorem play_append (held : κ → Nat) (as bs : List (Access κ)) :
    play held (as ++ bs)
      = (play held as).bind fun held => play held bs := by
  induction as generalizing held with
  | nil => rfl
  | cons a as ih =>
      rw [List.cons_append, play_cons, play_cons, Option.bind_assoc]
      exact congrArg _ (funext ih)

/-- A guard taken and dropped around accesses. -/
theorem play_guarded (held : κ → Nat) (map : κ) (as : List (Access κ)) :
    play held (.get map :: as ++ [.drop map])
      = (play (Function.update held map (held map + 1)) as).bind
          fun held => some
            (Function.update held map (held map - 1)) := by
  rw [List.cons_append, play_cons, perform, Option.bind_some, play_append]
  rfl

/-- A thread is stuck exactly at a write under a guard of its own. -/
theorem play_eq_none_iff {held : κ → Nat} {as : List (Access κ)} :
    play held as = none
      ↔ ∃ before map after held',
        as = before ++ .write map :: after
          ∧ play held before = some held' ∧ 0 < held' map := by
  induction as generalizing held with
  | nil => simp
  | cons a as ih =>
      rw [play_cons, Option.bind_eq_none_iff]
      refine ⟨fun h => ?_, fun h => ?_⟩
      · cases hp : perform held a with
        | some next =>
            obtain ⟨before, map, after, held', rfl, hbefore, hpos⟩ :=
              ih.1 (h next hp)
            exact ⟨a :: before, map, after, held', rfl,
              by rw [play_cons, hp]; exact hbefore, hpos⟩
        | none =>
            cases a with
            | get map => cases hp
            | drop map => cases hp
            | write map =>
                exact ⟨[], map, as, held, rfl, rfl,
                  perform_write_eq_none.1 hp⟩
      · obtain ⟨before, map, after, held', heq, hbefore, hpos⟩ := h
        intro next hnext
        cases before with
        | nil =>
            obtain ⟨rfl, rfl⟩ := List.cons.inj heq
            cases hbefore
            rw [perform_write_eq_none.2 hpos] at hnext
            cases hnext
        | cons b before =>
            obtain ⟨rfl, rfl⟩ := List.cons.inj heq
            rw [play_cons, hnext] at hbefore
            exact ih.2 ⟨before, map, after, held', rfl, hbefore, hpos⟩

theorem writesUnderGuard_iff {as : List (Access κ)} :
    WritesUnderGuard as ↔ play noGuards as = none :=
  play_eq_none_iff.symm

end Access

end Wup
