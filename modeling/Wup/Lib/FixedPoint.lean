/-
Fixed-point notation: a signed mantissa and a number of fraction digits,
written as decimal text and read back.

The text keeps the scale: 50 at scale 2 is `0.50`, 5 at scale 1 is
`0.5`, and each reads back as itself. `read_write` is that round trip.
The writer pads the digits with zeros to one more than the scale, so
there is always a digit before the point; the reader folds the digits of
both halves as one number and counts the second half, so the padding is
invisible to it.
-/
import Mathlib

namespace Wup.FixedPoint

-- ================================================================= writing

/-- The digits of a magnitude, padded so that at least one of them
stands before the point. -/
def paddedDigits (n scale : Nat) : List Char :=
  let ds := Nat.toDigits 10 n
  List.replicate (scale + 1 - ds.length) '0' ++ ds

/-- Sign, integer digits, and a fraction part when the scale asks for
one. -/
def write (m : Int) (scale : Nat) : List Char :=
  let ds := paddedDigits m.natAbs scale
  let int := ds.take (ds.length - scale)
  let frac := ds.drop (ds.length - scale)
  (if m < 0 then ['-'] else [])
    ++ int ++ (if scale = 0 then [] else '.' :: frac)

-- ================================================================= reading

/-- The fraction digits of what follows the integer digits. -/
def readFraction : List Char → Option (List Char)
  | [] => some []
  | '.' :: frac => if frac.all (·.isDigit) then some frac else none
  | _ => none

/-- An unsigned numeral: its digits as one number, and how many of them
stand after the point. -/
def readUnsigned (cs : List Char) : Option (Nat × Nat) :=
  let int := cs.takeWhile (·.isDigit)
  (readFraction (cs.dropWhile (·.isDigit))).bind fun frac =>
    if int ++ frac = [] then none
    else some (Nat.ofDigitChars 10 (int ++ frac) 0, frac.length)

/-- A numeral with an optional minus sign. -/
def read : List Char → Option (Int × Nat)
  | '-' :: cs => (readUnsigned cs).map fun r => (-(r.1 : Int), r.2)
  | cs => (readUnsigned cs).map fun r => ((r.1 : Int), r.2)

-- ============================================================== round trip

theorem isDigit_of_mem_paddedDigits {n scale : Nat} {c : Char}
    (hc : c ∈ paddedDigits n scale) : c.isDigit = true := by
  rcases List.mem_append.1 hc with hc | hc
  · rw [List.eq_of_mem_replicate hc]
    rfl
  · exact Nat.isDigit_of_mem_toDigits (by decide) (by decide) hc

theorem ofDigitChars_paddedDigits (n scale : Nat) :
    Nat.ofDigitChars 10 (paddedDigits n scale) 0 = n := by
  unfold paddedDigits
  rw [Nat.ofDigitChars_append, Nat.ofDigitChars_replicate_zero,
    Nat.mul_zero, Nat.ofDigitChars_ten_toDigits]

theorem scale_lt_length_paddedDigits (n scale : Nat) :
    scale < (paddedDigits n scale).length := by
  unfold paddedDigits
  rw [List.length_append, List.length_replicate]
  omega

/-- The unsigned part of a written numeral reads back. -/
private theorem readUnsigned_write (n scale : Nat) :
    readUnsigned
        ((paddedDigits n scale).take
            ((paddedDigits n scale).length - scale)
          ++ (if scale = 0 then [] else '.' ::
            (paddedDigits n scale).drop
              ((paddedDigits n scale).length - scale)))
      = some (n, scale) := by
  have hlen := scale_lt_length_paddedDigits n scale
  have hdig : ∀ c ∈ paddedDigits n scale, c.isDigit = true :=
    fun c hc => isDigit_of_mem_paddedDigits hc
  have hval := ofDigitChars_paddedDigits n scale
  generalize paddedDigits n scale = ds at hlen hdig hval
  have hint : ∀ c ∈ ds.take (ds.length - scale), c.isDigit = true :=
    fun c hc => hdig c (List.mem_of_mem_take hc)
  have hfrac : ∀ c ∈ ds.drop (ds.length - scale), c.isDigit = true :=
    fun c hc => hdig c (List.mem_of_mem_drop hc)
  have hne : ds ≠ [] := by
    rintro rfl
    simp at hlen
  unfold readUnsigned
  by_cases hs : scale = 0
  · subst hs
    simp only [Nat.sub_zero, List.take_length, if_true,
      List.append_nil] at hint ⊢
    rw [List.takeWhile_eq_self_iff.2 hint,
      List.dropWhile_eq_nil_iff.2 hint]
    simp [readFraction, hne, hval]
  · rw [if_neg hs, List.takeWhile_append_of_pos hint,
      List.dropWhile_append_of_pos hint]
    have hdot : ('.' : Char).isDigit = false := rfl
    rw [List.takeWhile_cons_of_neg (by simp [hdot]),
      List.dropWhile_cons_of_neg (by simp [hdot]), List.append_nil]
    have hall : (ds.drop (ds.length - scale)).all (·.isDigit) = true :=
      List.all_eq_true.2 hfrac
    simp only [readFraction, hall, if_true, Option.bind_some,
      List.take_append_drop, if_neg hne, hval, List.length_drop]
    congr 2
    omega

/-- A written numeral starts with a digit, not with a sign. -/
private theorem write_unsigned_ne_minus (n scale : Nat) (rest : List Char) :
    ∃ c cs, (paddedDigits n scale).take
        ((paddedDigits n scale).length - scale) ++ rest = c :: cs
      ∧ c ≠ '-' := by
  have hlen := scale_lt_length_paddedDigits n scale
  cases htake : (paddedDigits n scale).take
      ((paddedDigits n scale).length - scale) with
  | nil =>
      rw [List.take_eq_nil_iff] at htake
      rcases htake with h | h
      · omega
      · rw [h] at hlen
        simp at hlen
  | cons c cs =>
      refine ⟨c, cs ++ rest, rfl, ?_⟩
      rintro rfl
      have hmem : '-' ∈ paddedDigits n scale :=
        List.mem_of_mem_take (htake ▸ List.mem_cons_self ..)
      exact absurd (isDigit_of_mem_paddedDigits hmem) (by decide)

/-- What is written reads back, with its scale. -/
theorem read_write (m : Int) (scale : Nat) :
    read (write m scale) = some (m, scale) := by
  have hread := readUnsigned_write m.natAbs scale
  unfold write
  by_cases hm : m < 0
  · simp only [if_pos hm, List.cons_append, List.nil_append]
    rw [read, hread, Option.map_some]
    congr 2
    omega
  · simp only [if_neg hm, List.nil_append]
    obtain ⟨c, cs, hcs, hc⟩ := write_unsigned_ne_minus m.natAbs scale
      (if scale = 0 then [] else '.' ::
        (paddedDigits m.natAbs scale).drop
          ((paddedDigits m.natAbs scale).length - scale))
    rw [hcs] at hread ⊢
    have hplain : read (c :: cs)
        = (readUnsigned (c :: cs)).map fun r => ((r.1 : Int), r.2) := by
      unfold read
      split
      next heq =>
        injection heq with hc'
        exact absurd hc' hc
      next => rfl
    rw [hplain, hread, Option.map_some]
    congr 2
    omega

end Wup.FixedPoint
