/-
Decimals: what the services take from the `rust_decimal` crate.

A `Decimal` is a signed mantissa over a power of ten. It keeps the scale
it was written with, so 0.5 and 0.50 are two decimals of one value; the
crate's order, equality test and map keys compare the value. `val` is
that value and is the rank of every price-keyed map.

The crate's functions are not in the repository. `RustDecimal` collects
the ones the services call, as a parameter of the model. Its laws are
separate, and a result names those it relies on. `Lawful` is that printing
and parsing round-trip. `Rounds` is what the crate documents of `+` and
`-`: the exact result, rounded half to even to the digits that a mantissa
of 96 bits leaves room for, and a panic where even the integer part has
no room. `Exact` is the idealisation under which sums of any size are
exact, for results about the numbers where rounding is not the question.

`fixedPoint` is a concrete instance: plain decimal notation, with exact
sums at the larger scale. `rustDecimal` is the same notation with the
crate's rounding.
-/
import Wup.Lib.FixedPoint
import Wup.Lib.Rounding

namespace Wup

-- ============================================================= the numbers

/-- A decimal number: `mantissa / 10 ^ scale`. -/
structure Decimal where
  mantissa : Int
  scale : Nat
deriving DecidableEq, Repr

namespace Decimal

/-- The value: what the crate's comparisons see. -/
def val (d : Decimal) : ℚ := d.mantissa / 10 ^ d.scale

/-- `Decimal::ZERO`. -/
def zero : Decimal := ⟨0, 0⟩

/-- `is_zero`. -/
def isZero (d : Decimal) : Bool := d.mantissa == 0

@[simp] theorem val_zero : zero.val = 0 := by simp [zero, val]

/-- `Decimal::MAX`. -/
def maxValue : ℚ := 2 ^ 96 - 1

/-- A mantissa has 96 bits, and there are at most 28 digits after the
point. -/
def format : Rounding.Format where
  max := 2 ^ 96 - 1
  digits := 28
  odd := by decide

/-- A mantissa rescaled to more digits has the same value. -/
theorem val_rescale (m : Int) {s t : Nat} (h : s ≤ t) :
    ((m * 10 ^ (t - s) : Int) : ℚ) / 10 ^ t = m / 10 ^ s := by
  have hsplit : (10 : ℚ) ^ t = 10 ^ (t - s) * 10 ^ s := by
    rw [← pow_add, Nat.sub_add_cancel h]
  rw [hsplit]
  push_cast
  field_simp

end Decimal

-- =============================================================== the crate

/-- The crate's functions the services call. -/
structure RustDecimal where
  /-- `Decimal::from_str`. -/
  fromStr : String → Option Decimal
  /-- `Display`, as `to_string`. -/
  toString : Decimal → String
  /-- `checked_add`: `+`, with `none` where that panics. -/
  checkedAdd : Decimal → Decimal → Option Decimal
  /-- `checked_sub`: `-`, with `none` where that panics. -/
  checkedSub : Decimal → Decimal → Option Decimal
  /-- `/`. -/
  div : Decimal → Decimal → Decimal

namespace RustDecimal

variable (D : RustDecimal)

/-- `+`, where it does not panic. -/
def add (a b : Decimal) : Decimal := (D.checkedAdd a b).getD .zero

/-- `-`, where it does not panic. -/
def sub (a b : Decimal) : Decimal := (D.checkedSub a b).getD .zero

/-- `Iterator::sum` over decimals: additions from zero, in order. -/
def sum (ds : List Decimal) : Decimal := ds.foldl D.add .zero

/-- The number a wire string denotes. -/
def num (s : String) : Option ℚ := (D.fromStr s).map (·.val)

/-- Text round-trips. -/
structure Lawful : Prop where
  fromStr_toString : ∀ d, D.fromStr (D.toString d) = some d

/-- Sums and differences are the exact ones, rounded to the format. -/
structure Rounds : Prop where
  checkedAdd : ∀ a b, (D.checkedAdd a b).map Decimal.val
    = Decimal.format.nearest (a.val + b.val)
  checkedSub : ∀ a b, (D.checkedSub a b).map Decimal.val
    = Decimal.format.nearest (a.val - b.val)

/-- Text round-trips, and sums and differences of any size are exact. -/
structure Exact : Prop extends D.Lawful where
  checkedAdd : ∀ a b,
    (D.checkedAdd a b).map Decimal.val = some (a.val + b.val)
  checkedSub : ∀ a b,
    (D.checkedSub a b).map Decimal.val = some (a.val - b.val)

variable {D}

theorem Lawful.num_toString (hD : D.Lawful) (d : Decimal) :
    D.num (D.toString d) = some d.val := by
  rw [num, hD.fromStr_toString, Option.map_some]

theorem Lawful.toString_injective (hD : D.Lawful) :
    Function.Injective D.toString := by
  intro a b hab
  have h := hD.fromStr_toString a
  rw [hab, hD.fromStr_toString] at h
  exact (Option.some.inj h).symm

theorem Exact.val_add (hD : D.Exact) (a b : Decimal) :
    (D.add a b).val = a.val + b.val := by
  obtain ⟨c, hc, hval⟩ := Option.map_eq_some_iff.1 (hD.checkedAdd a b)
  rw [add, hc, Option.getD_some, hval]

theorem Exact.val_sub (hD : D.Exact) (a b : Decimal) :
    (D.sub a b).val = a.val - b.val := by
  obtain ⟨c, hc, hval⟩ := Option.map_eq_some_iff.1 (hD.checkedSub a b)
  rw [sub, hc, Option.getD_some, hval]

/-- The sum of decimals is the sum of their values. -/
theorem Exact.val_sum (hD : D.Exact) (ds : List Decimal) :
    (D.sum ds).val = (ds.map Decimal.val).sum := by
  have hfold : ∀ (ds : List Decimal) (a : Decimal),
      (ds.foldl D.add a).val = a.val + (ds.map Decimal.val).sum := by
    intro ds
    induction ds with
    | nil => intro a; simp
    | cons d ds ih =>
        intro a
        rw [List.foldl_cons, ih, hD.val_add, List.map_cons,
          List.sum_cons, add_assoc]
  rw [sum, hfold, Decimal.val_zero, zero_add]

end RustDecimal

-- ====================================================== concrete instances

/-- Bring both mantissas to the larger scale and combine them there. -/
def Decimal.align (op : Int → Int → Int) (a b : Decimal) : Decimal :=
  let s := max a.scale b.scale
  ⟨op (a.mantissa * 10 ^ (s - a.scale)) (b.mantissa * 10 ^ (s - b.scale)),
    s⟩

theorem Decimal.val_align_add (a b : Decimal) :
    (Decimal.align (· + ·) a b).val = a.val + b.val := by
  have ha := Decimal.val_rescale a.mantissa (le_max_left a.scale b.scale)
  have hb := Decimal.val_rescale b.mantissa (le_max_right a.scale b.scale)
  simp only [Decimal.align, Decimal.val] at *
  rw [Int.cast_add, add_div, ha, hb]

theorem Decimal.val_align_sub (a b : Decimal) :
    (Decimal.align (· - ·) a b).val = a.val - b.val := by
  have ha := Decimal.val_rescale a.mantissa (le_max_left a.scale b.scale)
  have hb := Decimal.val_rescale b.mantissa (le_max_right a.scale b.scale)
  simp only [Decimal.align, Decimal.val] at *
  rw [Int.cast_sub, sub_div, ha, hb]

/-- Plain decimal notation with exact sums; quotients are cut at 28
fraction digits. -/
def fixedPoint : RustDecimal where
  fromStr s := (FixedPoint.read s.toList).map fun r => ⟨r.1, r.2⟩
  toString d := String.ofList (FixedPoint.write d.mantissa d.scale)
  checkedAdd a b := some (Decimal.align (· + ·) a b)
  checkedSub a b := some (Decimal.align (· - ·) a b)
  div a b :=
    ⟨a.mantissa * 10 ^ (28 + b.scale) / (b.mantissa * 10 ^ a.scale), 28⟩

theorem fixedPoint_exact : fixedPoint.Exact where
  fromStr_toString d := by
    simp [fixedPoint, FixedPoint.read_write]
  checkedAdd a b := congrArg some (Decimal.val_align_add a b)
  checkedSub a b := congrArg some (Decimal.val_align_sub a b)

theorem fixedPoint_lawful : fixedPoint.Lawful := fixedPoint_exact.toLawful

/-- A decimal rounded to the format, from its own scale down. -/
def Decimal.round (d : Decimal) : Option Decimal :=
  (Decimal.format.fit d.val (min d.scale Decimal.format.digits)).map
    fun r => ⟨r.1, r.2⟩

theorem Decimal.val_round (d : Decimal) :
    d.round.map Decimal.val = Decimal.format.nearest d.val := by
  have hround : d.round.map Decimal.val
      = (Decimal.format.fit d.val (min d.scale Decimal.format.digits)).map
          Rounding.value := by
    rw [Decimal.round, Option.map_map]
    rfl
  rw [hround, Rounding.Format.nearest]
  rcases le_total d.scale Decimal.format.digits with hle | hge
  · have hexact : d.val * 10 ^ d.scale = d.mantissa := by
      rw [Decimal.val, div_mul_cancel₀ _ (by positivity)]
    rw [min_eq_left hle, Rounding.Format.value_fit_of_exact hexact hle]
  · rw [min_eq_right hge]

/-- Plain decimal notation with the crate's rounding. -/
def rustDecimal : RustDecimal where
  fromStr := fixedPoint.fromStr
  toString := fixedPoint.toString
  checkedAdd a b := (Decimal.align (· + ·) a b).round
  checkedSub a b := (Decimal.align (· - ·) a b).round
  div := fixedPoint.div

theorem rustDecimal_lawful : rustDecimal.Lawful where
  fromStr_toString := fixedPoint_lawful.fromStr_toString

theorem rustDecimal_rounds : rustDecimal.Rounds where
  checkedAdd a b := by
    rw [← Decimal.val_align_add]
    exact Decimal.val_round _
  checkedSub a b := by
    rw [← Decimal.val_align_sub]
    exact Decimal.val_round _

/-- Two spellings of one number are two decimals of one value. -/
example :
    fixedPoint.fromStr "0.50" = some ⟨50, 2⟩
      ∧ fixedPoint.num "0.50" = fixedPoint.num "0.5" := by
  decide +kernel

/-- Beside the largest decimal 0.4 is rounded off, and 0.6 is too much. -/
example :
    rustDecimal.checkedAdd ⟨2 ^ 96 - 1, 0⟩ ⟨4, 1⟩ = some ⟨2 ^ 96 - 1, 0⟩
      ∧ rustDecimal.checkedAdd ⟨2 ^ 96 - 1, 0⟩ ⟨6, 1⟩ = none := by
  decide +kernel

end Wup
