/-
Optional extrema: the best of a set that may be empty.

`MaxOf S o` reads `o` as the greatest element of `S`, with `none` for the
empty set; `MinOf` is its dual. Both are functional in `S`, so two
readings of one set agree.

# The running best

`raise` improves a best by a newcomer, which is the best of the set with
the newcomer added (`MaxOf.raise`). A running best only ever sees
arrivals, so it is the best of all that ever arrived. It is the best of
what is left of that exactly when nothing gone was ahead of all that is
left (`MaxOf.subset_iff`).

# The search of a list

`search` walks a list with a best so far that gives way to whatever beats
it. Under the two laws of a comparison (`Ranks`) the result beats all that
stood before it and is beaten by nothing after it (`search_split`). A
search that is filtered afterwards finds a good element exactly when some
good element is ahead of all that are not (`search_good_iff`).
-/
import Mathlib

namespace Wup

variable {α : Type*}

/-- `o` is the greatest element of `S`, absent when `S` is empty. -/
def MaxOf [LE α] (S : Set α) : Option α → Prop
  | none => S = ∅
  | some v => IsGreatest S v

/-- `o` is the least element of `S`, absent when `S` is empty. -/
def MinOf [LE α] (S : Set α) : Option α → Prop
  | none => S = ∅
  | some v => IsLeast S v

/-- The least element is the greatest in the opposite order. -/
theorem minOf_iff_maxOf_dual [LE α] {S : Set α} {o : Option α} :
    MinOf S o ↔ MaxOf (α := αᵒᵈ) S o := by
  cases o with
  | none => exact Iff.rfl
  | some v => exact Iff.rfl

theorem MaxOf.unique [PartialOrder α] {S : Set α} {o o' : Option α}
    (h : MaxOf S o) (h' : MaxOf S o') : o = o' := by
  cases o with
  | none =>
      cases o' with
      | none => rfl
      | some v =>
          have hS : S = ∅ := h
          exact absurd (hS ▸ h'.1) (Set.notMem_empty v)
  | some v =>
      cases o' with
      | none =>
          have hS : S = ∅ := h'
          exact absurd (hS ▸ h.1) (Set.notMem_empty v)
      | some v' => rw [IsGreatest.unique h h']

theorem MinOf.unique [PartialOrder α] {S : Set α} {o o' : Option α}
    (h : MinOf S o) (h' : MinOf S o') : o = o' :=
  @MaxOf.unique αᵒᵈ _ S o o' (minOf_iff_maxOf_dual.1 h)
    (minOf_iff_maxOf_dual.1 h')

theorem MaxOf.eq_some_iff [PartialOrder α] {S : Set α} {o : Option α}
    (h : MaxOf S o) {v : α} : o = some v ↔ IsGreatest S v :=
  ⟨fun ho => by rwa [ho] at h, fun hv => h.unique hv⟩

theorem MinOf.eq_some_iff [PartialOrder α] {S : Set α} {o : Option α}
    (h : MinOf S o) {v : α} : o = some v ↔ IsLeast S v :=
  ⟨fun ho => by rwa [ho] at h, fun hv => h.unique hv⟩

theorem MaxOf.congr [LE α] {S S' : Set α} {o : Option α} (h : MaxOf S o)
    (hS : ∀ v, v ∈ S ↔ v ∈ S') : MaxOf S' o := by
  rwa [← Set.ext hS]

theorem MinOf.congr [LE α] {S S' : Set α} {o : Option α} (h : MinOf S o)
    (hS : ∀ v, v ∈ S ↔ v ∈ S') : MinOf S' o := by
  rwa [← Set.ext hS]

/-- An optional value is the maximum of itself. -/
theorem maxOf_self [Preorder α] (o : Option α) :
    MaxOf {v | o = some v} o := by
  cases o with
  | none => exact Set.eq_empty_of_forall_notMem fun v hv => by cases hv
  | some u => exact ⟨rfl, fun v hv => (Option.some.inj hv).ge⟩

/-- And the minimum. -/
theorem minOf_self [Preorder α] (o : Option α) :
    MinOf {v | o = some v} o := by
  cases o with
  | none => exact Set.eq_empty_of_forall_notMem fun v hv => by cases hv
  | some u => exact ⟨rfl, fun v hv => (Option.some.inj hv).le⟩

-- ======================================================== the running best

variable [LinearOrder α]

/-- The greater of a best and a newcomer. -/
def raise (o : Option α) (v : α) : α :=
  match o with
  | some current => if current < v then v else current
  | none => v

/-- The lesser of a best and a newcomer. -/
def lower (o : Option α) (v : α) : α :=
  match o with
  | some current => if v < current then v else current
  | none => v

theorem MaxOf.raise {S : Set α} {o : Option α} (h : MaxOf S o) (v : α) :
    MaxOf (insert v S) (some (Wup.raise o v)) := by
  cases o with
  | none =>
      have hS : S = ∅ := h
      rw [hS]
      exact ⟨Set.mem_insert v ∅, fun w hw => by
        rcases hw with rfl | hw
        · exact le_rfl
        · exact absurd hw (Set.notMem_empty w)⟩
  | some current =>
      have hmax : Wup.raise (some current) v = max v current := by
        simp only [Wup.raise]
        rcases lt_or_ge current v with hv | hv
        · rw [if_pos hv, max_eq_left hv.le]
        · rw [if_neg (not_lt.2 hv), max_eq_right hv]
      rw [hmax]
      exact IsGreatest.insert v h

theorem MinOf.lower {S : Set α} {o : Option α} (h : MinOf S o) (v : α) :
    MinOf (insert v S) (some (Wup.lower o v)) := by
  cases o with
  | none =>
      have hS : S = ∅ := h
      rw [hS]
      exact ⟨Set.mem_insert v ∅, fun w hw => by
        rcases hw with rfl | hw
        · exact le_rfl
        · exact absurd hw (Set.notMem_empty w)⟩
  | some current =>
      have hmin : Wup.lower (some current) v = min v current := by
        simp only [Wup.lower]
        rcases lt_or_ge v current with hv | hv
        · rw [if_pos hv, min_eq_left hv.le]
        · rw [if_neg (not_lt.2 hv), min_eq_right hv]
      rw [hmin]
      exact IsLeast.insert v h

/-- The best of a set is the best of a part exactly when the part reaches
as far. -/
theorem MaxOf.subset_iff {S T : Set α} {o : Option α} (h : MaxOf S o)
    (hsub : T ⊆ S) : MaxOf T o ↔ ∀ v ∈ S, ∃ w ∈ T, v ≤ w := by
  cases o with
  | none =>
      have hS : S = ∅ := h
      subst hS
      exact iff_of_true (Set.subset_empty_iff.1 hsub) fun v hv => nomatch hv
  | some best =>
      obtain ⟨hmem, hub⟩ : IsGreatest S best := h
      refine ⟨fun hbest v hv => ⟨best, hbest.1, hub hv⟩, fun hreach => ?_⟩
      obtain ⟨w, hw, hle⟩ := hreach best hmem
      obtain rfl : best = w := le_antisymm hle (hub (hsub hw))
      exact ⟨hw, fun v hv => hub (hsub hv)⟩

theorem MinOf.subset_iff {S T : Set α} {o : Option α} (h : MinOf S o)
    (hsub : T ⊆ S) : MinOf T o ↔ ∀ v ∈ S, ∃ w ∈ T, w ≤ v := by
  rw [minOf_iff_maxOf_dual]
  exact ((minOf_iff_maxOf_dual (α := α)).1 h).subset_iff hsub

-- ==================================================== the search of a list

variable {β : Type*}

/-- Search a list for its best: the best so far gives way to whatever
beats it. -/
def search (beats : β → β → Bool) (xs : List β) : Option β :=
  xs.foldl (fun best x =>
    match best with
    | none => some x
    | some b => if beats x b then some x else some b) none

/-- The laws of a comparison: transitive, and what beats `b` beats all
that does not beat `b`. -/
structure Ranks (beats : β → β → Bool) : Prop where
  trans : ∀ {x y z}, beats x y = true → beats y z = true → beats x z = true
  keep : ∀ {x y b}, beats x b = true → beats y b = false →
    beats x y = true

/-- `b` stands in `xs`, beats all before it and is beaten by nothing
after it. -/
def Leads (beats : β → β → Bool) (b : β) (rivals : β → Prop)
    (xs : List β) : Prop :=
  ∃ pre post, xs = pre ++ b :: post
    ∧ (∀ x ∈ pre, rivals x → beats b x = true)
    ∧ ∀ x ∈ post, rivals x → beats x b = false

section Search

variable {beats : β → β → Bool} {xs : List β} {b : β}

private theorem search_snoc (xs : List β) (x : β) :
    search beats (xs ++ [x]) = match search beats xs with
      | none => some x
      | some b => if beats x b then some x else some b := by
  unfold search
  rw [List.foldl_append]
  rfl

theorem search_eq_none_iff : search beats xs = none ↔ xs = [] := by
  induction xs using List.reverseRecOn with
  | nil => exact iff_of_true rfl rfl
  | append_singleton xs x ih =>
      rw [search_snoc]
      refine iff_of_false ?_ (by simp)
      cases search beats xs with
      | none => simp
      | some b =>
          show ¬(if beats x b = true then some x else some b) = none
          split <;> simp

/-- What the search finds leads against everything. -/
theorem search_split (hbeats : Ranks beats)
    (h : search beats xs = some b) : Leads beats b (fun _ => True) xs := by
  -- the newcomer beats what the best so far beats, and what did not beat it
  induction xs using List.reverseRecOn generalizing b with
  | nil => cases h
  | append_singleton xs x ih =>
      rw [search_snoc] at h
      cases hxs : search beats xs with
      | none =>
          rw [hxs] at h
          obtain rfl : x = b := Option.some.inj h
          rw [search_eq_none_iff.1 hxs]
          exact ⟨[], [], rfl, by simp, by simp⟩
      | some c =>
          obtain ⟨pre, post, hsplit, hpre, hpost⟩ := ih hxs
          rw [hxs] at h
          by_cases hx : beats x c = true
          · simp only [hx, if_true, Option.some.injEq] at h
            subst h
            refine ⟨xs, [], rfl, fun y hy _ => ?_, by simp⟩
            rw [hsplit, List.mem_append, List.mem_cons] at hy
            rcases hy with hy | hy | hy
            · exact hbeats.trans hx (hpre y hy trivial)
            · exact hy ▸ hx
            · exact hbeats.keep hx (hpost y hy trivial)
          · simp only [hx, Bool.false_eq_true, if_false,
              Option.some.injEq] at h
            subst h
            refine ⟨pre, post ++ [x], ?_, hpre, fun y hy _ => ?_⟩
            · rw [hsplit, List.append_assoc, List.cons_append]
            · rcases List.mem_append.1 hy with hy | hy
              · exact hpost y hy trivial
              · rw [List.mem_singleton.1 hy]
                exact Bool.eq_false_iff.2 hx

/-- The search finds a good element exactly when some good element leads
against all that are not. -/
theorem search_good_iff (hbeats : Ranks beats) {good : β → Prop} :
    (∃ b, search beats xs = some b ∧ good b)
      ↔ ∃ e, good e ∧ Leads beats e (fun x => ¬good x) xs := by
  refine ⟨fun h => ?_, fun h => ?_⟩
  · obtain ⟨b, hb, hgood⟩ := h
    obtain ⟨pre, post, hsplit, hpre, hpost⟩ := search_split hbeats hb
    exact ⟨b, hgood, pre, post, hsplit, fun x hx _ => hpre x hx trivial,
      fun x hx _ => hpost x hx trivial⟩
  · obtain ⟨e, hgood, pre, post, hsplit, hpre, hpost⟩ := h
    cases hb : search beats xs with
    | none =>
        rw [search_eq_none_iff.1 hb] at hsplit
        simp at hsplit
    | some b =>
        refine ⟨b, rfl, ?_⟩
        by_contra hbad
        obtain ⟨pre', post', hsplit', hpre', hpost'⟩ :=
          search_split hbeats hb
        rw [hsplit] at hsplit'
        -- the winner and `e` stand at different places of one list
        rcases List.append_eq_append_iff.1 hsplit' with
          ⟨mid, hmid, hrest⟩ | ⟨mid, hmid, hrest⟩
        · cases mid with
          | nil =>
              obtain rfl : e = b := (List.cons.inj hrest).1
              exact hbad hgood
          | cons m mid =>
              obtain ⟨hm, htail⟩ := List.cons.inj hrest
              subst hm
              have he := hpre' e (by simp [hmid]) trivial
              have hb' := hpost b (by rw [htail]; simp) hbad
              rw [he] at hb'
              cases hb'
        · cases mid with
          | nil =>
              obtain rfl : b = e := (List.cons.inj hrest).1
              exact hbad hgood
          | cons m mid =>
              obtain ⟨hm, htail⟩ := List.cons.inj hrest
              subst hm
              have he := hpre b (by simp [hmid]) hbad
              have hb' := hpost' e (by rw [htail]; simp) trivial
              rw [he] at hb'
              cases hb'

end Search

end Wup
