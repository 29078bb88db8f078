/-
JSON: what the services take from the `serde_json` crate.

The crate's functions are not in the repository. `SerdeJson` collects
the ones the services call, as a parameter of the model; `Lawful` is what
results about texts rely on: which texts are accepted and what they
denote, and that what is printed reads back. How the text of a number
with a fraction or an exponent is read is left to the parameter.

The crate keeps the last of repeated keys, and sorts them; a `Value`
keeps its members as written, and whoever reads it takes the last.

`compactJson` is a concrete instance: the exact parser, and the writer
without whitespace.
-/
import Wup.Lib.JsonParser
import Wup.Lib.JsonWriter

namespace Wup

open Json

/-- The crate's functions the services call. -/
structure SerdeJson where
  /-- What the text of a number is read as, unless it is out of range. -/
  number : List Char → Option Number
  /-- `from_str::<Value>`. -/
  fromStr : String → Option Value
  /-- `to_string`. -/
  toString : Value → String

namespace SerdeJson

/-- How deep a text may nest: the crate's recursion limit. -/
def recursionLimit : Nat := 128

variable (J : SerdeJson)

/-- The crate as documented. -/
structure Lawful : Prop where
  /-- It reads the grammar. -/
  fromStr_eq_some_iff : ∀ {text v}, J.fromStr text = some v ↔
    ∃ d : Document, d.text = text ∧ d.root.depth < recursionLimit
      ∧ d.root.value J.number = some v
  /-- It reads `i64`s. -/
  number_intText : ∀ {n : Int}, -2 ^ 63 ≤ n → n < 2 ^ 63 →
    J.number (intText n) = some (.int n)
  /-- It reads what it prints. -/
  fromStr_toString : ∀ {v : Value}, v.Exact J.number →
    v.depth < recursionLimit → J.fromStr (J.toString v) = some v

variable {J}

/-- What a text is read as. -/
theorem Lawful.fromStr_text (hJ : J.Lawful) {d : Document} {v : Value} :
    J.fromStr d.text = some v
      ↔ d.root.depth < recursionLimit ∧ d.root.value J.number = some v := by
  rw [hJ.fromStr_eq_some_iff]
  refine ⟨fun ⟨d', htext, hd'⟩ => ?_, fun hd => ⟨d, rfl, hd⟩⟩
  have hchars := String.ofList_injective htext
  rwa [← Document.chars_injective hchars]

theorem Lawful.fromStr_of_printable (hJ : J.Lawful) {v : Value} {n : Nat}
    (hv : v.Printable J.number n) (hn : n < recursionLimit) :
    J.fromStr (J.toString v) = some v :=
  hJ.fromStr_toString hv.1 (Nat.lt_of_le_of_lt hv.2 hn)

end SerdeJson

-- ===================================================== a concrete instance

/-- The integer a run of digits with or without a sign stands for. -/
def readInt (cs : List Char) : Int :=
  if cs.head? = some '-' then -(Nat.ofDigitChars 10 cs.tail 0 : Int)
  else Nat.ofDigitChars 10 cs 0

/-- An integer of 64 bits, or a float printed as it is written. -/
def readNumber (cs : List Char) : Number :=
  if cs = intText (readInt cs) ∧ -2 ^ 63 ≤ readInt cs
      ∧ readInt cs < 2 ^ 64 then .int (readInt cs)
  else .float (String.ofList cs)

theorem readInt_intText (n : Int) : readInt (intText n) = n := by
  unfold intText
  split_ifs with hneg
  · simp only [readInt, List.singleton_append, List.head?_cons, if_true,
      List.tail_cons, Nat.ofDigitChars_ten_toDigits]
    omega
  · have hhead : (Nat.toDigits 10 n.natAbs).head? ≠ some '-' := by
      intro h
      have hmem := List.mem_of_mem_head? h
      have hdigit := Nat.isDigit_of_mem_toDigits (by decide) (by decide) hmem
      revert hdigit
      decide
    simp only [readInt, List.nil_append, if_neg hhead,
      Nat.ofDigitChars_ten_toDigits]
    omega

theorem readNumber_intText {n : Int} (hlow : -2 ^ 63 ≤ n)
    (hhigh : n < 2 ^ 63) : readNumber (intText n) = .int n := by
  rw [readNumber, readInt_intText, if_pos ⟨rfl, hlow, by omega⟩]

/-- The exact parser with a limit on the nesting, and the writer without
whitespace. -/
def compactJson : SerdeJson where
  number cs := some (readNumber cs)
  fromStr text := (parseDocument text.toList).bind fun d =>
    if d.root.depth < SerdeJson.recursionLimit then
      d.root.value fun cs => some (readNumber cs)
    else none
  toString v := String.ofList v.write

theorem compactJson_lawful : compactJson.Lawful where
  fromStr_eq_some_iff := by
    intro text v
    refine ⟨fun h => ?_, fun ⟨d, htext, hdepth, hvalue⟩ => ?_⟩
    · obtain ⟨d, hd, hv⟩ := Option.bind_eq_some_iff.1 h
      obtain ⟨hdepth, hvalue⟩ := Option.ite_none_right_eq_some.1 hv
      refine ⟨d, ?_, hdepth, hvalue⟩
      rw [Document.text, ← parseDocument_sound hd, String.ofList_toList]
    · have hchars : text.toList = d.chars := by
        rw [← htext, Document.text, String.toList_ofList]
      simp only [compactJson, hchars, parseDocument_chars, Option.bind_some,
        if_pos hdepth]
      exact hvalue
  number_intText := by
    intro n hlow hhigh
    exact congrArg some (readNumber_intText hlow hhigh)
  fromStr_toString := by
    intro v hexact hdepth
    obtain ⟨d, htext, hvalue, hd⟩ :=
      v.exists_syn hexact (by cases v <;> rfl)
    have hchars : (Document.mk ⟨[], rfl⟩ d ⟨[], rfl⟩).chars = v.write := by
      simp [Document.chars, htext]
    simp only [compactJson, String.toList_ofList, ← hchars,
      parseDocument_chars, Option.bind_some]
    rw [if_pos (by rw [hd]; exact hdepth)]
    exact hvalue

example : compactJson.fromStr "[1, -20, \"b\\u0041\\n\"]"
    = some (.arr (.cons (.num (.int 1)) (.cons (.num (.int (-20)))
        (.cons (.str "bA\n") .nil)))) := by
  decide +kernel

end Wup
