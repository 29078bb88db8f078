/-
What is stored of an event reads back.

Each record writes its fields under their names and reads them by name,
so reading undoes writing (`EventData.ofValue_toValue`); the counts and
the time have to be in the range of their types. On texts the rest is the
JSON library's promise, which it gives for values without floats: an
event whose markets carry no best prices is read back as it was written
(`fromStr_toString`).
-/
import Wup.ExternalServices.Types

namespace Wup.ExternalServices

open Json

-- ================================================================ by value

/-- Of an object with the fields of a record, a reader sees these. -/
theorem bind_structFields {names : List String}
    {fields : List (String × Value)} (hnames : fields.map (·.1) = names)
    (hnodup : names.Nodup) {β : Type}
    {read : (String → Option Value) → Option β} {b : Option β}
    (h : ∀ field, (∀ e ∈ fields, field e.1 = some e.2) → read field = b) :
    (structFields names (.obj (.ofMembers fields))).bind read = b := by
  subst hnames
  simp only [structFields, Node.memberList_ofMembers]
  rw [if_pos (hnodup.filter _), Option.bind_some]
  exact h _ fun e he => Node.find?_ofMembers hnodup he

theorem readVec_ofElems {α : Type} {read : Value → Option α}
    {write : α → Value} (h : ∀ a, read (write a) = some a) (as : List α) :
    readVec read (.arr (.ofElems (as.map write))) = some as := by
  show (Node.ofElems (as.map write)).elemList.mapM read = some as
  rw [Node.elemList_ofElems]
  induction as with
  | nil => rfl
  | cons a as ih =>
      rw [List.map_cons, List.mapM_cons, h, ih]
      rfl

theorem readOption_optionValue {α : Type} {read : Value → Option α}
    {write : α → Value} (h : ∀ a, read (write a) = some a)
    (hnull : ∀ a, write a ≠ .null) (o : Option α) :
    readOption read (some (optionValue write o)) = some o := by
  cases o with
  | none => rfl
  | some a =>
      show readOption read (some (write a)) = _
      unfold readOption
      split
      · next hw => cases hw
      · next hw => exact absurd (Option.some.inj hw) (hnull a)
      · next v hw => rw [← Option.some.inj hw, h, Option.map_some]

theorem readOption_str (o : Option String) :
    readOption readString (some (optionValue .str o)) = some o := by
  refine readOption_optionValue ?_ ?_ o
  · exact fun _ => rfl
  · exact fun _ h => nomatch h

theorem readOption_num (o : Option Number) :
    readOption readNumber (some (optionValue .num o)) = some o := by
  refine readOption_optionValue ?_ ?_ o
  · exact fun _ => rfl
  · exact fun _ h => nomatch h

theorem readInt_int {low high n : Int} (h : low ≤ n ∧ n < high) :
    readInt low high (.num (.int n)) = some n :=
  if_pos h

theorem TokenMapping.ofValue_toValue (t : TokenMapping) :
    TokenMapping.ofValue t.toValue = some t := by
  unfold TokenMapping.ofValue TokenMapping.toValue
  refine bind_structFields ?_ ?_ fun field hfield => ?_
  · rfl
  · decide
  simp only [List.forall_mem_cons] at hfield
  simp [hfield, readString]

theorem MarketData.ofValue_toValue (m : MarketData) :
    MarketData.ofValue m.toValue = some m := by
  unfold MarketData.ofValue MarketData.toValue
  refine bind_structFields ?_ ?_ fun field hfield => ?_
  · rfl
  · decide
  simp only [List.forall_mem_cons] at hfield
  have hids : readVec readString
      (.arr (.ofElems (m.clobTokenIds.map .str))) = some m.clobTokenIds := by
    refine readVec_ofElems ?_ _
    exact fun _ => rfl
  simp [hfield, readString, readBool, readOption_str, readOption_num, hids]

/-- What is written of an event's record reads back, with a count and a
time in range. -/
theorem EventData.ofValue_toValue {e : EventData}
    (hcount : (e.marketCount : Int) < 2 ^ 64)
    (htime : -2 ^ 63 ≤ e.fetchedAt ∧ e.fetchedAt < 2 ^ 63) :
    EventData.ofValue e.toValue = some e := by
  unfold EventData.ofValue EventData.toValue
  refine bind_structFields ?_ ?_ fun field hfield => ?_
  · rfl
  · decide
  simp only [List.forall_mem_cons] at hfield
  have hmarkets := readVec_ofElems MarketData.ofValue_toValue e.markets
  have htokens := readVec_ofElems TokenMapping.ofValue_toValue e.tokens
  have hcount' := readInt_int ⟨Int.natCast_nonneg e.marketCount, hcount⟩
  -- steps by definition would have the kernel unfold the bounds
  simp -implicitDefEqProofs [-Int.reducePow, hfield, readString, readBool,
    readOption_str, hmarkets, htokens, hcount', readInt_int htime]

-- ================================================================= as text

section Fields

variable {number : List Char → Option Number} {n : Nat}

theorem printable_optionValue (o : Option String) :
    Node.Printable number n (optionValue .str o) := by
  cases o with
  | none => exact .null
  | some s => exact .str s

theorem TokenMapping.printable (t : TokenMapping) :
    Node.Printable number (n + 1) t.toValue := by
  refine .record (by simp) ?_
  simp only [List.forall_mem_cons]
  exact ⟨.str _, .str _, .str _, nofun⟩

/-- A market without best prices. -/
theorem MarketData.printable {m : MarketData} (hbid : m.bestBid = none)
    (hask : m.bestAsk = none) : Node.Printable number 2 m.toValue := by
  have hids : Node.Printable number 1
      (.arr (.ofElems (m.clobTokenIds.map .str))) :=
    .vec fun _ _ => .str _
  refine .record (by simp) ?_
  simp only [List.forall_mem_cons, hbid, hask]
  have htext := @printable_optionValue number 1
  exact ⟨.str _, htext _, htext _, htext _, htext _, .null, .null, htext _,
    htext _, .bool _, .bool _, hids, nofun⟩

end Fields

/-- An event without best prices is read back as it was written. -/
theorem EventData.fromStr_toString {J : SerdeJson} (hJ : J.Lawful)
    {e : EventData}
    (hprices : ∀ m ∈ e.markets, m.bestBid = none ∧ m.bestAsk = none)
    (hcount : (e.marketCount : Int) < 2 ^ 63)
    (htime : -2 ^ 63 ≤ e.fetchedAt ∧ e.fetchedAt < 2 ^ 63) :
    EventData.fromStr J (e.toString J) = some e := by
  have hmarkets : Node.Printable J.number 3
      (.arr (.ofElems (e.markets.map MarketData.toValue))) :=
    .vec fun m hm => MarketData.printable (hprices m hm).1 (hprices m hm).2
  have htokens : Node.Printable J.number 3
      (.arr (.ofElems (e.tokens.map TokenMapping.toValue))) :=
    .vec fun t _ => t.printable
  have hcount' := hJ.number_intText (by omega) hcount
  have htime' := hJ.number_intText htime.1 htime.2
  have hevent : Node.Printable J.number 4 e.toValue := by
    refine .record (by simp) ?_
    simp only [List.forall_mem_cons]
    exact ⟨.str _, .str _, .str _, printable_optionValue _, .bool _,
      .bool _, hmarkets, .int hcount', htokens, .int htime', nofun⟩
  unfold EventData.fromStr EventData.toString
  rw [hJ.fromStr_of_printable hevent (by decide), Option.bind_some]
  exact EventData.ofValue_toValue (by omega) htime

end Wup.ExternalServices
