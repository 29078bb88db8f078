/-
JSON records whose fields may be skipped, and enumerations.

A writer may leave out a field that has no value. `ofFields` is what is
written of a list of fields that each have a value or not; by name, every
field is found again with what it had (`find?_present`), so a skipped field
is told from the others by its absence alone.

An enumeration is written as the name of its variant. It is read from the
name, or from an object that has the name over a null. A variant with
fields of its own is written with them, its name in a member `tag`: the
reader takes that member out and leaves the rest (`readTagged_ofFields`).
-/
import Wup.Lib.JsonWriter

namespace Wup.Json

namespace Node

-- ================================================================= records

/-- The fields that have a value. -/
def present (fields : List (String × Option Value)) :
    List (String × Value) :=
  fields.filterMap fun e => e.2.map fun v => (e.1, v)

/-- An object of the fields that have a value. -/
def ofFields (fields : List (String × Option Value)) : Value :=
  .obj (.ofMembers (present fields))

theorem keys_present_sublist (fields : List (String × Option Value)) :
    ((present fields).map (·.1)).Sublist (fields.map (·.1)) := by
  induction fields with
  | nil => exact .slnil
  | cons e fields ih =>
      obtain ⟨name, v⟩ := e
      cases v with
      | none => exact ih.cons name
      | some v => exact ih.cons_cons name

theorem nodup_keys_present {fields : List (String × Option Value)}
    (h : (fields.map (·.1)).Nodup) : ((present fields).map (·.1)).Nodup :=
  h.sublist (keys_present_sublist fields)

/-- Of distinct names, each is found with the value it has. -/
theorem find?_present {fields : List (String × Option Value)}
    (h : (fields.map (·.1)).Nodup) {e : String × Option Value}
    (he : e ∈ fields) : (ofMembers (present fields)).find? e.1 = e.2 := by
  obtain ⟨name, v⟩ := e
  cases v with
  | some v =>
      have hmem : (name, v) ∈ present fields :=
        List.mem_filterMap.2 ⟨(name, some v), he, rfl⟩
      exact find?_ofMembers (nodup_keys_present h) hmem
  | none =>
      rw [find?_eq_none_iff, memberList_ofMembers]
      intro hmem
      obtain ⟨⟨name', v⟩, hpresent, hname⟩ := List.mem_map.1 hmem
      obtain ⟨⟨name'', v'⟩, hfield, hv⟩ := List.mem_filterMap.1 hpresent
      obtain ⟨w, hw, hpair⟩ := Option.map_eq_some_iff.1 hv
      -- the two fields have one name, so they are one field
      have hnames : name'' = name :=
        (congrArg Prod.fst hpair).trans hname
      have hsame := List.inj_on_of_nodup_map h hfield he hnames
      have hnone : v' = none := congrArg Prod.snd hsame
      have hsome : v' = some w := hw
      rw [hnone] at hsome
      cases hsome

variable {number : List Char → Option Number} {n : Nat}

theorem Printable.ofFields {fields : List (String × Option Value)}
    (hkeys : (fields.map (·.1)).Nodup)
    (h : ∀ e ∈ fields, ∀ v ∈ e.2, Printable number n v) :
    Printable number (n + 1) (ofFields fields) := by
  refine .record (nodup_keys_present hkeys) fun e he => ?_
  obtain ⟨e', he', hv⟩ := List.mem_filterMap.1 he
  obtain ⟨v, hv', rfl⟩ := Option.map_eq_some_iff.1 hv
  exact h e' he' v hv'

end Node

-- ============================================================ enumerations

/-- A variant without data, by its name. -/
def readVariant {α : Type} (variant : String → Option α) : Value → Option α
  | .str name => variant name
  | .obj (.member name .null .done) => variant name
  | _ => none

theorem readVariant_str {α : Type} (variant : String → Option α)
    (name : String) : readVariant variant (.str name) = variant name := rfl

-- ========================================================== tagged records

/-- A record that names its variant in a member: the name, and the rest.
In an array the name comes first. -/
def readTagged (tag : String) : Value → Option (String × Value)
  | .obj ms =>
      match ms.memberList.filter (·.1 = tag) with
      | [(_, .str variant)] =>
          some (variant, .obj
            (.ofMembers (ms.memberList.filter (·.1 ≠ tag))))
      | _ => none
  | .arr elems =>
      match elems.elemList with
      | .str variant :: rest => some (variant, .arr (.ofElems rest))
      | _ => none
  | _ => none

/-- The rest of a variant without fields. -/
def readUnit : Value → Option Unit
  | .obj _ => some ()
  | .arr elems => if elems.elemList = [] then some () else none
  | _ => none

theorem readTagged_ofFields {tag variant : String}
    {fields : List (String × Option Value)} (h : tag ∉ fields.map (·.1)) :
    readTagged tag (.ofFields ((tag, some (.str variant)) :: fields))
      = some (variant, .ofFields fields) := by
  have hother : ∀ e ∈ Node.present fields, e.1 ≠ tag := by
    rintro e he rfl
    exact h ((Node.keys_present_sublist fields).subset
      (List.mem_map_of_mem he))
  have hnone : (Node.present fields).filter (·.1 = tag) = [] :=
    List.filter_eq_nil_iff.2 fun e he => by simpa using hother e he
  have hall : (Node.present fields).filter (·.1 ≠ tag)
      = Node.present fields :=
    List.filter_eq_self.2 fun e he => by simpa using hother e he
  have hcons : Node.present ((tag, some (.str variant)) :: fields)
      = (tag, .str variant) :: Node.present fields := rfl
  unfold readTagged Node.ofFields
  rw [hcons]
  simp only [Node.memberList_ofMembers]
  rw [List.filter_cons_of_pos (by simp), hnone,
    List.filter_cons_of_neg (by simp), hall]

end Wup.Json
