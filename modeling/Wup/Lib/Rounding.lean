/-
Decimal formats: sums that are rounded to what fits.

A format has a largest mantissa and a largest number of digits after the
point. A number is rounded, half to even, to the largest scale at which
its mantissa fits (`fit`); what does not fit at scale zero is out of
range. The largest mantissa is odd, so the number half a unit beyond it
is rounded away from it, and the range is `|x| < max + 1/2`
(`isSome_fit`).

# Running sums

Numbers added up one by one are rounded at each step, and the next
addition starts from the rounded sum. `SumsInRange` says that every
addition on the way has a result. It depends on the order of the
numbers, and a sum out of range can follow rounded sums that are in
range where the exact ones all are. Numbers with few enough digits are
not rounded at all, and then the largest sum decides
(`sumsInRange_of_nonneg`).
-/
import Mathlib

namespace Wup.Rounding

-- ============================================================ half to even

/-- The nearest integer, and the even one of two that are as near. -/
def halfEven (x : ℚ) : ℤ :=
  if 1 / 2 < Int.fract x ∨ (Int.fract x = 1 / 2 ∧ ⌊x⌋ % 2 = 1) then
    ⌊x⌋ + 1
  else ⌊x⌋

variable {x : ℚ} {n : ℤ}

@[simp] theorem halfEven_intCast (n : ℤ) : halfEven n = n := by
  simp [halfEven, Int.fract_intCast, Int.floor_intCast]

/-- Below an odd number lies what is less than half a unit above it. -/
theorem halfEven_le_iff (hn : Odd n) : halfEven x ≤ n ↔ x < n + 1 / 2 := by
  have hfloor : (⌊x⌋ : ℚ) + Int.fract x = x := Int.floor_add_fract x
  have hfract := Int.fract_lt_one x
  unfold halfEven
  rcases lt_trichotomy ⌊x⌋ n with hlt | heq | hgt
  · have hle : (⌊x⌋ : ℚ) + 1 ≤ n := by exact_mod_cast hlt
    refine iff_of_true ?_ (by linarith)
    split
    · exact hlt
    · exact hlt.le
  · have hodd : n % 2 = 1 := Int.odd_iff.1 hn
    have hn' : (⌊x⌋ : ℚ) = n := by exact_mod_cast heq
    split
    next h =>
      have hhalf : 1 / 2 ≤ Int.fract x := by
        rcases h with h | h
        · exact h.le
        · exact h.1.ge
      exact iff_of_false (by omega) (by linarith)
    next h =>
      obtain ⟨hle, hne⟩ := not_or.1 h
      have hlt : Int.fract x < 1 / 2 :=
        lt_of_le_of_ne (not_lt.1 hle) fun he => hne ⟨he, heq ▸ hodd⟩
      exact iff_of_true heq.le (by linarith)
  · have hge : (n : ℚ) + 1 ≤ ⌊x⌋ := by exact_mod_cast hgt
    have hnonneg := Int.fract_nonneg x
    refine iff_of_false ?_ (by linarith)
    split
    · omega
    · omega

/-- Above an odd number lies what is less than half a unit below it. -/
theorem le_halfEven_iff (hn : Odd n) : n ≤ halfEven x ↔ n - 1 / 2 < x := by
  have hfloor : (⌊x⌋ : ℚ) + Int.fract x = x := Int.floor_add_fract x
  have hnonneg := Int.fract_nonneg x
  unfold halfEven
  rcases lt_trichotomy (⌊x⌋ + 1) n with hlt | heq | hgt
  · have hle : (⌊x⌋ : ℚ) + 1 + 1 ≤ n := by exact_mod_cast hlt
    have hfract := Int.fract_lt_one x
    refine iff_of_false ?_ (by linarith)
    split
    · omega
    · omega
  · have heven : ¬ ⌊x⌋ % 2 = 1 := by
      have hodd : n % 2 = 1 := Int.odd_iff.1 hn
      omega
    have hn' : (⌊x⌋ : ℚ) + 1 = n := by exact_mod_cast heq
    split
    next h =>
      have hhalf : 1 / 2 < Int.fract x := by
        rcases h with h | h
        · exact h
        · exact absurd h.2 heven
      exact iff_of_true heq.ge (by linarith)
    next h =>
      have hle := not_lt.1 (not_or.1 h).1
      exact iff_of_false (by omega) (by linarith)
  · have hge : (n : ℚ) ≤ ⌊x⌋ := by exact_mod_cast Int.lt_add_one_iff.1 hgt
    refine iff_of_true ?_ (by linarith)
    split
    · omega
    · omega

-- ================================================================= formats

/-- What the numbers of a type can be. -/
structure Format where
  /-- The largest mantissa. -/
  max : ℕ
  /-- The largest number of digits after the point. -/
  digits : ℕ
  odd : Odd max

/-- The value of a mantissa at a scale. -/
def value (r : ℤ × ℕ) : ℚ := r.1 / 10 ^ r.2

namespace Format

variable (F : Format)

/-- Rounded at a scale, if the mantissa fits. -/
def atScale (x : ℚ) (scale : ℕ) : Option (ℤ × ℕ) :=
  let m := halfEven (x * 10 ^ scale)
  if m.natAbs ≤ F.max then some (m, scale) else none

/-- Rounded at the largest scale, up to a given one, at which the mantissa
fits. -/
def fit (x : ℚ) : ℕ → Option (ℤ × ℕ)
  | 0 => F.atScale x 0
  | scale + 1 => (F.atScale x (scale + 1)).or (fit x scale)

/-- The number of the format that stands for `x`, unless it is out of
range. -/
def nearest (x : ℚ) : Option ℚ := (F.fit x F.digits).map value

/-- There is a number of the format that stands for `x`. -/
def InRange (x : ℚ) : Prop := |x| < F.max + 1 / 2

instance : DecidablePred F.InRange :=
  fun x => inferInstanceAs (Decidable (|x| < _))

variable {F} {s t : ℕ}

theorem natAbs_halfEven_le_iff :
    (halfEven x).natAbs ≤ F.max ↔ F.InRange x := by
  have hodd : Odd (F.max : ℤ) := by exact_mod_cast F.odd
  have habs : (halfEven x).natAbs ≤ F.max
      ↔ -(F.max : ℤ) ≤ halfEven x ∧ halfEven x ≤ F.max := by omega
  rw [habs, halfEven_le_iff hodd, le_halfEven_iff hodd.neg, InRange, abs_lt]
  push_cast
  rw [neg_add']

theorem isSome_atScale :
    (F.atScale x s).isSome = true ↔ F.InRange (x * 10 ^ s) := by
  unfold atScale
  rw [← natAbs_halfEven_le_iff]
  simp only
  split
  next h => simp [h]
  next h => simp [h]

/-- More digits only make a mantissa longer. -/
theorem InRange.of_mul_pow (h : F.InRange (x * 10 ^ s)) : F.InRange x := by
  have hone : (1 : ℚ) ≤ 10 ^ s := one_le_pow₀ (by norm_num)
  unfold InRange at h ⊢
  rw [abs_mul, abs_of_pos (by positivity : (0 : ℚ) < 10 ^ s)] at h
  exact (le_mul_of_one_le_right (abs_nonneg x) hone).trans_lt h

/-- A number has a place in the format when it is in range. -/
theorem isSome_fit : (F.fit x s).isSome = true ↔ F.InRange x := by
  induction s with
  | zero => rw [fit, isSome_atScale, pow_zero, mul_one]
  | succ s ih =>
      rw [fit, Option.isSome_or, Bool.or_eq_true, ih, isSome_atScale]
      exact or_iff_right_of_imp InRange.of_mul_pow

theorem isSome_nearest : (F.nearest x).isSome = true ↔ F.InRange x := by
  rw [nearest, Option.isSome_map, isSome_fit]

/-- A whole number of units is rounded at no finer scale. -/
theorem atScale_of_exact {m : ℤ} (hx : x * 10 ^ s = m) (hst : s ≤ t) :
    F.atScale x t = none ∨ (F.atScale x t).map value = some x := by
  have hpow : (10 : ℚ) ^ t = 10 ^ s * 10 ^ (t - s) := by
    rw [← pow_add, Nat.add_sub_cancel' hst]
  have hmantissa : x * 10 ^ t = ((m * 10 ^ (t - s) : ℤ) : ℚ) := by
    rw [hpow, ← mul_assoc, hx]
    push_cast
    rfl
  unfold atScale
  rw [hmantissa, halfEven_intCast]
  simp only
  split
  · refine Or.inr (congrArg some ?_)
    have hpos : (10 : ℚ) ^ t ≠ 0 := by positivity
    rw [value, ← hmantissa, mul_div_cancel_right₀ _ hpos]
  · exact Or.inl rfl

/-- Of a whole number of units the finer scales make no difference. -/
theorem value_fit_of_exact {m : ℤ} (hx : x * 10 ^ s = m) (hst : s ≤ t) :
    (F.fit x t).map value = (F.fit x s).map value := by
  -- where a finer scale has room, so has this one, and both are exact
  have hself : (F.atScale x s).isSome = true →
      (F.fit x s).map value = some x := by
    intro h
    have hx' := (atScale_of_exact (F := F) hx le_rfl).resolve_left
      (Option.isSome_iff_ne_none.1 h)
    cases s with
    | zero => exact hx'
    | succ s =>
        obtain ⟨r, hr⟩ := Option.isSome_iff_exists.1 h
        rw [hr] at hx'
        rw [fit, hr, Option.some_or, hx']
  induction t, hst using Nat.le_induction with
  | base => rfl
  | succ t hst ih =>
      rw [fit]
      rcases atScale_of_exact (F := F) hx (Nat.le_succ_of_le hst) with
        hnone | hsome
      · rw [hnone, Option.none_or, ih]
      · obtain ⟨r, hr, hval⟩ := Option.map_eq_some_iff.1 hsome
        have hroom : (F.atScale x s).isSome = true := by
          have hfine := isSome_atScale.1 (Option.isSome_of_eq_some hr)
          refine isSome_atScale.2 (InRange.of_mul_pow (s := t + 1 - s) ?_)
          rwa [mul_assoc, ← pow_add,
            Nat.add_sub_cancel' (Nat.le_succ_of_le hst)]
        rw [hr, Option.some_or, Option.map_some, hval, hself hroom]

/-- A number of the format stands for itself. -/
theorem nearest_of_exact {m : ℤ} (hx : x * 10 ^ s = m)
    (hs : s ≤ F.digits) (hm : m.natAbs ≤ F.max) :
    F.nearest x = some x := by
  have hroom : F.atScale x s = some (m, s) := by
    unfold atScale
    rw [hx, halfEven_intCast]
    exact if_pos hm
  have hself := (atScale_of_exact (F := F) hx le_rfl).resolve_left
    (by rw [hroom]; exact Option.some_ne_none _)
  rw [nearest, value_fit_of_exact hx hs]
  cases s with
  | zero => exact hself
  | succ s =>
      rw [hroom] at hself
      rw [fit, hroom, Option.some_or, hself]

-- ============================================================ running sums

variable (F)

/-- A number as it is kept; only what is in range is. -/
def rounded (x : ℚ) : ℚ := (F.nearest x).getD 0

/-- Numbers added to `a` one by one. -/
def sumFrom (a : ℚ) (xs : List ℚ) : ℚ :=
  xs.foldl (fun sum x => F.rounded (sum + x)) a

/-- The numbers of a list added up. -/
def runningSum (xs : List ℚ) : ℚ := F.sumFrom 0 xs

/-- Every addition to `a` on the way has a result. -/
def SumsInRangeFrom (a : ℚ) (xs : List ℚ) : Prop :=
  ∀ p x, p ++ [x] <+: xs → F.InRange (F.sumFrom a p + x)

/-- Every addition in adding up the list has a result. -/
def SumsInRange (xs : List ℚ) : Prop := F.SumsInRangeFrom 0 xs

variable {F} {a : ℚ} {xs : List ℚ}

theorem sumsInRangeFrom_nil : F.SumsInRangeFrom a [] := by
  intro p x hp
  simp at hp

/-- The steps of an accumulation. -/
theorem sumsInRangeFrom_cons :
    F.SumsInRangeFrom a (x :: xs)
      ↔ F.InRange (a + x) ∧ F.SumsInRangeFrom (F.rounded (a + x)) xs := by
  refine ⟨fun h => ⟨?_, fun p y hp => ?_⟩, fun ⟨hx, h⟩ p y hp => ?_⟩
  · exact h [] x (List.cons_prefix_cons.2 ⟨rfl, List.nil_prefix⟩)
  · exact h (x :: p) y (List.cons_prefix_cons.2 ⟨rfl, hp⟩)
  · cases p with
    | nil =>
        obtain ⟨rfl, -⟩ := List.cons_prefix_cons.1 hp
        exact hx
    | cons z p =>
        obtain ⟨rfl, hrest⟩ := List.cons_prefix_cons.1 hp
        exact h p y hrest

/-- Numbers without negative ones, of few enough digits, are in range all
the way when they are in total, and the sum of them is exact. -/
theorem sumsFrom_of_nonneg {ms : List ℕ} {k : ℕ} (hs : s ≤ F.digits)
    (hsum : k + ms.sum ≤ F.max) :
    F.SumsInRangeFrom (k / 10 ^ s) (ms.map fun m : ℕ => m / 10 ^ s)
      ∧ F.sumFrom (k / 10 ^ s) (ms.map fun m : ℕ => m / 10 ^ s)
        = (k + ms.sum : ℕ) / 10 ^ s := by
  induction ms generalizing k with
  | nil => exact ⟨sumsInRangeFrom_nil, by simp [sumFrom]⟩
  | cons m ms ih =>
      rw [List.sum_cons, ← add_assoc] at hsum
      have hnext : (k : ℚ) / 10 ^ s + m / 10 ^ s
          = (k + m : ℕ) / 10 ^ s := by
        push_cast
        ring
      have hexact : ((k + m : ℕ) / 10 ^ s : ℚ) * 10 ^ s
          = ((k + m : ℕ) : ℤ) := by
        rw [div_mul_cancel₀ _ (by positivity)]
        rfl
      have hkeep : F.nearest ((k + m : ℕ) / 10 ^ s : ℚ)
          = some ((k + m : ℕ) / 10 ^ s : ℚ) :=
        nearest_of_exact hexact hs (by omega)
      have hrange : F.InRange ((k + m : ℕ) / 10 ^ s : ℚ) :=
        isSome_nearest.1 (Option.isSome_of_eq_some hkeep)
      have hrounded : F.rounded ((k + m : ℕ) / 10 ^ s : ℚ)
          = (k + m : ℕ) / 10 ^ s := by
        rw [rounded, hkeep, Option.getD_some]
      obtain ⟨hin, hval⟩ := ih hsum
      rw [List.map_cons, sumsInRangeFrom_cons, hnext, hrounded]
      refine ⟨⟨hrange, hin⟩, ?_⟩
      rw [sumFrom, List.foldl_cons, hnext, hrounded, List.sum_cons,
        ← add_assoc]
      exact hval

theorem sumsInRange_of_nonneg {ms : List ℕ} (hs : s ≤ F.digits)
    (hsum : ms.sum ≤ F.max) :
    F.SumsInRange (ms.map fun m : ℕ => m / 10 ^ s)
      ∧ F.runningSum (ms.map fun m : ℕ => m / 10 ^ s)
        = ms.sum / 10 ^ s := by
  have h := sumsFrom_of_nonneg (F := F) (s := s) (k := 0) hs
    (by rwa [zero_add])
  rwa [Nat.cast_zero, zero_div, zero_add] at h

end Format

end Wup.Rounding
