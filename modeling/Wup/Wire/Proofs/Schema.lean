/-
What is written of a message of the schema reads back.

By value, each record is found field by field under the names it was
written with (`ofValue_toValue`); a skipped option is read as `None`
because its name is absent. On texts the JSON library's promise does the
rest: none of these messages has a float.
-/
import Wup.ExternalServices.Proofs.Records
import Wup.Wire.Schema

namespace Wup

open Json
open ExternalServices (structFields readString readVec readOption
  readInt_int)

-- ================================================================ by value

/-- Of an object with distinct keys, a reader sees its members, whatever
names it knows. -/
theorem bind_ofMembers {names : List String}
    {fields : List (String × Value)} (hkeys : (fields.map (·.1)).Nodup)
    {β : Type} {read : (String → Option Value) → Option β} {b : Option β}
    (h : ∀ field, (∀ e ∈ fields, field e.1 = some e.2) → read field = b) :
    (structFields names (.obj (.ofMembers fields))).bind read = b := by
  simp only [structFields, Node.memberList_ofMembers]
  rw [if_pos (hkeys.filter _), Option.bind_some]
  exact h _ fun e he => Node.find?_ofMembers hkeys he

/-- The same without the skipped fields. -/
theorem bind_ofFields {names : List String}
    {fields : List (String × Option Value)}
    (hkeys : (fields.map (·.1)).Nodup) {β : Type}
    {read : (String → Option Value) → Option β} {b : Option β}
    (h : ∀ field, (∀ e ∈ fields, field e.1 = e.2) → read field = b) :
    (structFields names (.ofFields fields)).bind read = b := by
  simp only [structFields, Node.ofFields, Node.memberList_ofMembers]
  rw [if_pos ((Node.nodup_keys_present hkeys).filter _), Option.bind_some]
  exact h _ fun e he => Node.find?_present hkeys he

/-- A vector whose elements are read as something else. -/
theorem readVec_vecValue {α β : Type} {read : Value → Option β}
    {write : α → Value} {f : α → β} (h : ∀ a, read (write a) = some (f a))
    (as : List α) : readVec read (vecValue write as) = some (as.map f) := by
  show (Node.ofElems (as.map write)).elemList.mapM read = _
  rw [Node.elemList_ofElems]
  induction as with
  | nil => rfl
  | cons a as ih =>
      rw [List.map_cons, List.mapM_cons, h, ih]
      rfl

theorem readVec_self {α : Type} {read : Value → Option α}
    {write : α → Value} (h : ∀ a, read (write a) = some a) (as : List α) :
    readVec read (vecValue write as) = some as := by
  rw [@readVec_vecValue α α read write id h, List.map_id]

/-- A skipped option is absent. -/
theorem readOption_map {α : Type} {read : Value → Option α}
    {write : α → Value} (h : ∀ a, read (write a) = some a)
    (hnull : ∀ a, write a ≠ .null) (o : Option α) :
    readOption read (o.map write) = some o := by
  cases o with
  | none => rfl
  | some a => exact ExternalServices.readOption_optionValue h hnull (some a)

theorem readOption_map_str (o : Option String) :
    readOption readString (o.map .str) = some o := by
  refine readOption_map ?_ ?_ o
  · exact fun _ => rfl
  · exact fun _ h => nomatch h

theorem readOption_map_vec {α : Type} {read : Value → Option α}
    {write : α → Value} (h : ∀ a, read (write a) = some a)
    (o : Option (List α)) :
    readOption (readVec read) (o.map (vecValue write)) = some o := by
  refine readOption_map ?_ ?_ o
  · exact readVec_self h
  · exact fun _ h => nomatch h

theorem OrderbookMessageType.ofJson_json (t : OrderbookMessageType) :
    ofJson t.json = some t := by
  cases t <;> decide

theorem Side.ofJson_json (s : Side) : ofJson s.json = some s := by
  cases s <;> decide

theorem OrderSide.ofJson_json (s : OrderSide) : ofJson s.json = some s := by
  cases s <;> decide

theorem PriceLevel.ofValue_toValue (l : PriceLevel) :
    PriceLevel.ofValue l.toValue = some l := by
  unfold PriceLevel.ofValue PriceLevel.toValue
  refine bind_ofMembers (by simp) fun field hfield => ?_
  simp only [List.forall_mem_cons] at hfield
  simp [hfield, readString]

theorem OrderbookUpdate.ofValue_toValue (u : OrderbookUpdate) :
    OrderbookUpdate.ofValue u.toValue = some u := by
  unfold OrderbookUpdate.ofValue OrderbookUpdate.toValue
  refine bind_ofMembers (by simp) fun field hfield => ?_
  simp only [List.forall_mem_cons] at hfield
  simp [hfield, readString, readVariant_str, Side.ofJson_json]

/-- What is written of a normalized message reads back, with a time of
receipt in range. -/
theorem NormalizedOrderbook.ofValue_toValue {msg : NormalizedOrderbook}
    (htime : msg.Timely) :
    NormalizedOrderbook.ofValue msg.toValue = some msg := by
  unfold NormalizedOrderbook.ofValue NormalizedOrderbook.toValue
  refine bind_ofFields (by simp) fun field hfield => ?_
  simp only [List.forall_mem_cons] at hfield
  have hlevels := readOption_map_vec PriceLevel.ofValue_toValue
  have hupdates := readOption_map_vec OrderbookUpdate.ofValue_toValue
  -- steps by definition would have the kernel unfold the bounds
  simp -implicitDefEqProofs [-Int.reducePow, hfield, readString,
    readVariant_str, OrderbookMessageType.ofJson_json, hlevels, hupdates,
    readOption_map_str, readInt_int htime]

theorem PlatformEntry.ofValue_toValue (e : PlatformEntry) :
    PlatformEntry.ofValue e.toValue = some e := by
  unfold PlatformEntry.ofValue PlatformEntry.toValue
  refine bind_ofMembers (by simp) fun field hfield => ?_
  simp only [List.forall_mem_cons] at hfield
  simp [hfield, readString]

theorem AggregatedPriceLevelChange.ofValue_toValue
    (c : AggregatedPriceLevelChange) :
    AggregatedPriceLevelChange.ofValue c.toValue = some c := by
  unfold AggregatedPriceLevelChange.ofValue
    AggregatedPriceLevelChange.toValue
  refine bind_ofMembers (by simp) fun field hfield => ?_
  simp only [List.forall_mem_cons] at hfield
  have hplatforms := readVec_self PlatformEntry.ofValue_toValue c.platforms
  simp [hfield, readString, readVariant_str, OrderSide.ofJson_json,
    hplatforms]

/-- What is written of an event reads back, with a time in range. -/
theorem AggregatedPriceChangeEvent.ofValue_toValue
    {e : AggregatedPriceChangeEvent}
    (htime : e.Timely) :
    AggregatedPriceChangeEvent.ofValue e.toValue = some e := by
  unfold AggregatedPriceChangeEvent.ofValue
    AggregatedPriceChangeEvent.toValue
  refine bind_ofMembers (by simp) fun field hfield => ?_
  simp only [List.forall_mem_cons] at hfield
  have hchanges := readVec_self
    AggregatedPriceLevelChange.ofValue_toValue e.changes
  simp -implicitDefEqProofs [-Int.reducePow, hfield, readString, hchanges,
    readInt_int htime]

-- ================================================================= as text

section Text

variable {number : List Char → Option Number} {n : Nat}

theorem printable_vecValue {α : Type} {write : α → Value} {as : List α}
    (h : ∀ a ∈ as, Node.Printable number n (write a)) :
    Node.Printable number (n + 1) (vecValue write as) :=
  .vec h

theorem PriceLevel.printable (l : PriceLevel) :
    Node.Printable number (n + 1) l.toValue := by
  refine .record (by simp) ?_
  simp only [List.forall_mem_cons]
  exact ⟨.str _, .str _, nofun⟩

theorem OrderbookUpdate.printable (u : OrderbookUpdate) :
    Node.Printable number (n + 1) u.toValue := by
  refine .record (by simp) ?_
  simp only [List.forall_mem_cons]
  exact ⟨.str _, .str _, .str _, nofun⟩

theorem PlatformEntry.printable (e : PlatformEntry) :
    Node.Printable number (n + 1) e.toValue := by
  refine .record (by simp) ?_
  simp only [List.forall_mem_cons]
  exact ⟨.str _, .str _, nofun⟩

theorem AggregatedPriceLevel.printable (l : AggregatedPriceLevel) :
    Node.Printable number (n + 3) l.toValue := by
  have hplatforms : Node.Printable number (n + 2)
      (vecValue PlatformEntry.toValue l.platforms) :=
    printable_vecValue fun e _ => e.printable
  refine .record (by simp) ?_
  simp only [List.forall_mem_cons]
  exact ⟨.str _, .str _, hplatforms, nofun⟩

theorem AggregatedPriceLevelChange.printable
    (c : AggregatedPriceLevelChange) :
    Node.Printable number (n + 3) c.toValue := by
  have hplatforms : Node.Printable number (n + 2)
      (vecValue PlatformEntry.toValue c.platforms) :=
    printable_vecValue fun e _ => e.printable
  refine .record (by simp) ?_
  simp only [List.forall_mem_cons]
  exact ⟨.str _, .str _, .str _, hplatforms, nofun⟩

end Text

variable {J : SerdeJson}

theorem NormalizedOrderbook.printable (hJ : J.Lawful)
    {msg : NormalizedOrderbook}
    (htime : msg.Timely) :
    Node.Printable J.number 3 msg.toValue := by
  have hlevels : ∀ o : Option (List PriceLevel),
      ∀ v ∈ o.map (vecValue PriceLevel.toValue),
        Node.Printable J.number 2 v := by
    intro o v hv
    obtain ⟨levels, -, rfl⟩ := Option.map_eq_some_iff.1 hv
    exact printable_vecValue fun l _ => l.printable
  have hupdates : ∀ v ∈ msg.updates.map (vecValue OrderbookUpdate.toValue),
      Node.Printable J.number 2 v := by
    intro v hv
    obtain ⟨updates, -, rfl⟩ := Option.map_eq_some_iff.1 hv
    exact printable_vecValue fun u _ => u.printable
  have hprice : ∀ o : Option String, ∀ v ∈ o.map Node.str,
      Node.Printable J.number 2 v := by
    intro o v hv
    obtain ⟨s, -, rfl⟩ := Option.map_eq_some_iff.1 hv
    exact .str s
  have htext : ∀ s : String, ∀ v ∈ some (Node.str s),
      Node.Printable J.number 2 v := by
    intro s v hv
    obtain rfl := Option.some.inj hv
    exact .str s
  have htime' : ∀ v ∈ some (Node.num (.int msg.receivedAt)),
      Node.Printable J.number 2 v := by
    intro v hv
    obtain rfl := Option.some.inj hv
    exact .int (hJ.number_intText htime.1 htime.2)
  refine .ofFields (by simp) ?_
  simp only [List.forall_mem_cons]
  exact ⟨htext _, htext _, htext _, htext _, hlevels _, hlevels _, hupdates,
    hprice _, hprice _, htext _, htime', htext _, nofun⟩

/-- A normalized message is received as it was sent. -/
theorem NormalizedOrderbook.fromStr_toString (hJ : J.Lawful)
    {msg : NormalizedOrderbook}
    (htime : msg.Timely) :
    NormalizedOrderbook.fromStr J (msg.toString J) = some msg := by
  unfold NormalizedOrderbook.fromStr NormalizedOrderbook.toString
  rw [hJ.fromStr_of_printable (printable hJ htime) (by decide),
    Option.bind_some]
  exact ofValue_toValue htime

theorem AggregatedPriceChangeEvent.printable (hJ : J.Lawful)
    {e : AggregatedPriceChangeEvent}
    (htime : e.Timely) :
    Node.Printable J.number 5 e.toValue := by
  have hchanges : Node.Printable J.number 4
      (vecValue AggregatedPriceLevelChange.toValue e.changes) :=
    printable_vecValue fun c _ => c.printable
  have htime' := hJ.number_intText htime.1 htime.2
  refine .record (by simp) ?_
  simp only [List.forall_mem_cons]
  exact ⟨.str _, .str _, hchanges, .int htime', nofun⟩

/-- The text of an event reads as the value it was written from. -/
theorem AggregatedPriceChangeEvent.fromStr_toString (hJ : J.Lawful)
    {e : AggregatedPriceChangeEvent}
    (htime : e.Timely) :
    J.fromStr (e.toString J) = some e.toValue :=
  hJ.fromStr_of_printable (printable hJ htime) (by decide)

/-- An event is received as it was sent. -/
theorem AggregatedPriceChangeEvent.fromSlice_toString (hJ : J.Lawful)
    {e : AggregatedPriceChangeEvent}
    (htime : e.Timely) :
    AggregatedPriceChangeEvent.fromSlice J (e.toString J) = some e := by
  unfold AggregatedPriceChangeEvent.fromSlice
  rw [fromStr_toString hJ htime, Option.bind_some]
  exact ofValue_toValue htime

end Wup
