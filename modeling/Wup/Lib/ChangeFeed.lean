/-
Replication by re-reading: a source publishes, for some keys, the value
it holds now; a replica overwrites what is mentioned.

A change list `cs` published when the source moved from `b` to `a` has
two separate qualities: what it says is the new value (`faithful`), and
it says something wherever the value moved (`covers`). Both together are
`Publishes`; a replica that held `b` then holds `a`, and with the first
alone it does so exactly when the second holds too
(`patch_eq_iff_covers`).

# Queues

Change lists travel through queues, and a replica may start from a copy
of the source taken while older lists are still on their way. Two facts
make that work. `Publishes.patch_snoc`: what the replica becomes once
the queue is drained follows the source. `Publishes.settle`: draining a
queue of already reflected lists into the source's own value changes
nothing, because a later mention of a key always comes after an earlier
one. A suffix of such a queue is again one (`settle_of_append`).
-/
import Mathlib

namespace Wup.ChangeFeed

variable {K V : Type*} [DecidableEq K]

/-- Overwrite the mentioned keys, in order. -/
def patch (f : K → V) (cs : List (K × V)) : K → V :=
  cs.foldl (fun f c => Function.update f c.1 c.2) f

@[simp] theorem patch_nil (f : K → V) : patch f [] = f := rfl

theorem patch_append (f : K → V) (cs ds : List (K × V)) :
    patch f (cs ++ ds) = patch (patch f cs) ds := by
  unfold patch
  rw [List.foldl_append]

/-- A key that is not mentioned keeps its value. -/
theorem patch_apply_of_notMem {f : K → V} {k : K} :
    ∀ {cs : List (K × V)}, k ∉ cs.map (·.1) → patch f cs k = f k := by
  intro cs
  induction cs generalizing f with
  | nil => intro _; rfl
  | cons c cs ih =>
      intro h
      rw [List.map_cons, List.mem_cons, not_or] at h
      show patch (Function.update f c.1 c.2) cs k = f k
      rw [ih h.2, Function.update_of_ne h.1]

/-- A mentioned key forgets its value. -/
theorem patch_apply_of_mem {f g : K → V} {k : K} :
    ∀ {cs : List (K × V)}, k ∈ cs.map (·.1) →
      patch f cs k = patch g cs k := by
  intro cs
  induction cs generalizing f g with
  | nil => intro h; cases h
  | cons c cs ih =>
      intro h
      show patch (Function.update f c.1 c.2) cs k
        = patch (Function.update g c.1 c.2) cs k
      by_cases hk : k ∈ cs.map (·.1)
      · exact ih hk
      · rw [patch_apply_of_notMem hk, patch_apply_of_notMem hk]
        have hc : k = c.1 := by
          rcases List.mem_cons.1 h with h | h
          · exact h
          · exact absurd h hk
        rw [hc, Function.update_self, Function.update_self]

/-- Where every mention agrees with `a`, a patch reads `a` at the
mentioned keys and the base elsewhere. -/
theorem patch_apply_of_faithful {a f : K → V} {k : K} :
    ∀ {cs : List (K × V)}, (∀ c ∈ cs, c.2 = a c.1) →
      patch f cs k = if k ∈ cs.map (·.1) then a k else f k := by
  intro cs h
  by_cases hk : k ∈ cs.map (·.1)
  · -- a base that holds `a` already stays put
    have hfix : ∀ cs : List (K × V), (∀ c ∈ cs, c.2 = a c.1) →
        patch a cs = a := by
      intro cs
      induction cs with
      | nil => intro _; rfl
      | cons c cs ih =>
          intro h
          show patch (Function.update a c.1 c.2) cs = a
          rw [h c (List.mem_cons_self ..), Function.update_eq_self]
          exact ih fun c' hc' => h c' (List.mem_cons_of_mem _ hc')
    rw [if_pos hk, patch_apply_of_mem (g := a) hk, hfix cs h]
  · rw [if_neg hk, patch_apply_of_notMem hk]

/-- The change list `cs` records a move of the source from `b` to `a`. -/
structure Publishes (cs : List (K × V)) (b a : K → V) : Prop where
  faithful : ∀ c ∈ cs, c.2 = a c.1
  covers : ∀ k, b k ≠ a k → k ∈ cs.map (·.1)

omit [DecidableEq K] in
/-- Nothing needs to be said where nothing moves. -/
theorem publishes_nil (b : K → V) : Publishes [] b b :=
  ⟨fun _ hc => (nomatch hc), fun _ hne => absurd rfl hne⟩

/-- Faithful mentions replicate a move exactly when they cover it. -/
theorem patch_eq_iff_covers {cs : List (K × V)} {b a : K → V}
    (h : ∀ c ∈ cs, c.2 = a c.1) :
    patch b cs = a ↔ ∀ k, b k ≠ a k → k ∈ cs.map (·.1) := by
  refine ⟨fun hp k hne => ?_, fun hc => ?_⟩
  · by_contra hk
    rw [← hp, patch_apply_of_notMem hk] at hne
    exact hne rfl
  · funext k
    rw [patch_apply_of_faithful h]
    by_cases hk : k ∈ cs.map (·.1)
    · rw [if_pos hk]
    · rw [if_neg hk]
      by_contra hne
      exact hk (hc k hne)

namespace Publishes

variable {cs q : List (K × V)} {b a f : K → V}

/-- A replica of the old value becomes a replica of the new one. -/
theorem patch_eq (h : Publishes cs b a) : patch b cs = a :=
  (patch_eq_iff_covers h.faithful).2 h.covers

/-- What a queue drains into follows the source. -/
theorem patch_snoc (h : Publishes cs b a) (hq : patch f q = b) :
    patch f (q ++ cs) = a := by
  rw [patch_append, hq, h.patch_eq]

/-- Draining reflected changes into the source's own value changes
nothing, also after one more move. -/
theorem settle (h : Publishes cs b a) (hq : patch b q = b) :
    patch a (q ++ cs) = a := by
  funext k
  rw [patch_append, patch_apply_of_faithful h.faithful]
  by_cases hk : k ∈ cs.map (·.1)
  · rw [if_pos hk]
  · rw [if_neg hk]
    have hab : b k = a k := by
      by_contra hne
      exact hk (h.covers k hne)
    by_cases hkq : k ∈ q.map (·.1)
    · rw [patch_apply_of_mem (g := b) hkq, hq, hab]
    · rw [patch_apply_of_notMem hkq]

end Publishes

/-- A suffix of a reflected queue is reflected. -/
theorem settle_of_append {b : K → V} {p q : List (K × V)}
    (h : patch b (p ++ q) = b) : patch b q = b := by
  funext k
  by_cases hk : k ∈ q.map (·.1)
  · rw [patch_apply_of_mem (g := patch b p) hk, ← patch_append, h]
  · exact patch_apply_of_notMem hk

end Wup.ChangeFeed
