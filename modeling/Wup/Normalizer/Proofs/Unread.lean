/-
What the adapter does not read.

A record that is an object is read by the names of its fields, so a
member under another name makes no difference, wherever it stands. Values
that agree up to the members under one name that is not read (`without`)
read the same: the levels and the changes of a message, and the message
but for the time of receipt (`parseValue_stamped`).
-/
import Wup.Normalizer.Payload

namespace Wup.Normalizer

open Json ParsedMessage

/-- The name of the one field a timestamp is put under. -/
def receivedAtKey : String := "received_at"

/-- What is left to read of a value. -/
abbrev unstamped (v : Value) : Value := v.without receivedAtKey

-- ================================================================== fields

theorem stringOrNumber_unstamped (v : Value) :
    stringOrNumber (unstamped v) = stringOrNumber v := by
  cases v <;> rfl

theorem map_stringOrNumber_unstamped (field : Option Value) :
    (field.map unstamped).map stringOrNumber
      = field.map stringOrNumber := by
  rw [Option.map_map]
  exact congrArg (field.map ·) (funext stringOrNumber_unstamped)

theorem stringOrNumberDefault_unstamped (field : Option Value) :
    stringOrNumberDefault (field.map unstamped)
      = stringOrNumberDefault field := by
  cases field with
  | none => rfl
  | some v => exact stringOrNumber_unstamped v

theorem readString_unstamped (field : Option Value) :
    readString (field.map unstamped) = readString field := by
  cases field with
  | none => rfl
  | some v => cases v <;> rfl

theorem readVec_unstamped {α : Type*} {read : Value → Option α}
    (h : ∀ v, read (unstamped v) = read v) (field : Option Value) :
    readVec read (field.map unstamped) = readVec read field := by
  cases field with
  | none => rfl
  | some v =>
      cases v with
      | arr elems =>
          have hlist := Node.elemList_without receivedAtKey elems rfl
          show (elems.without receivedAtKey).elemList.mapM read
            = elems.elemList.mapM read
          rw [hlist, List.mapM_map]
          exact congrArg (List.mapM · elems.elemList) (funext h)
      | _ => rfl

private theorem lookup_zip_map {α β : Type*} (f : α → β)
    (names : List String) (xs : List α) (name : String) :
    (names.zip (xs.map f)).lookup name
      = ((names.zip xs).lookup name).map f := by
  induction names generalizing xs with
  | nil => rfl
  | cons n names ih =>
      cases xs with
      | nil => rfl
      | cons x xs =>
          rw [List.map_cons, List.zip_cons_cons, List.zip_cons_cons,
            List.lookup_cons, List.lookup_cons, ih]
          cases name == n <;> rfl

/-- The fields that are read, of a record. -/
theorem structFields_unstamped (names : List String) (v : Value) :
    (structFields names v = none ∧ structFields names (unstamped v) = none)
      ∨ ∃ field field', structFields names v = some field
        ∧ structFields names (unstamped v) = some field'
        ∧ ∀ name, name ≠ receivedAtKey →
          field' name = (field name).map unstamped := by
  cases v with
  | obj members =>
      exact .inr ⟨_, _, rfl, rfl,
        fun name h => Node.find?_without h members⟩
  | arr elems =>
      have hlist := Node.elemList_without receivedAtKey elems rfl
      unfold structFields
      simp only [unstamped, Node.without, hlist, List.length_map]
      split_ifs
      · exact .inr ⟨_, _, rfl, rfl, fun name _ => lookup_zip_map ..⟩
      · exact .inl ⟨rfl, rfl⟩
  | _ => exact .inl ⟨rfl, rfl⟩

-- ================================================================= records

theorem level_unstamped (v : Value) :
    RawPriceLevel.ofValue (unstamped v) = RawPriceLevel.ofValue v := by
  rcases structFields_unstamped RawPriceLevel.fieldNames v with
    ⟨h, h'⟩ | ⟨field, field', h, h', hsame⟩
  · unfold RawPriceLevel.ofValue
    rw [h, h']
  · unfold RawPriceLevel.ofValue
    rw [h, h']
    simp only [Option.bind_eq_bind, Option.bind_some,
      hsame "price" (by decide), hsame "size" (by decide),
      map_stringOrNumber_unstamped]

theorem change_unstamped (v : Value) :
    RawPriceChange.ofValue (unstamped v) = RawPriceChange.ofValue v := by
  rcases structFields_unstamped RawPriceChange.fieldNames v with
    ⟨h, h'⟩ | ⟨field, field', h, h', hsame⟩
  · unfold RawPriceChange.ofValue
    rw [h, h']
  · unfold RawPriceChange.ofValue
    rw [h, h']
    simp only [Option.bind_eq_bind, Option.bind_some,
      hsame "asset_id" (by decide), hsame "price" (by decide),
      hsame "size" (by decide), hsame "side" (by decide),
      hsame "hash" (by decide), hsame "best_bid" (by decide),
      hsame "best_ask" (by decide), map_stringOrNumber_unstamped,
      stringOrNumberDefault_unstamped, readString_unstamped]

-- ================================================================ messages

/-- An object with the time of receipt put in, and nothing else that is
read changed. -/
def Stamped (t : Int) (v v' : Value) : Prop :=
  v'.get? receivedAtKey = some (.num (.int t))
    ∧ unstamped v' = unstamped v

/-- An object without a time of receipt. -/
def Fresh (v : Value) : Prop :=
  ∃ members : Node .members, v = .obj members
    ∧ members.find? receivedAtKey = none

/-- The message with another time of receipt. -/
def ParsedMessage.receivedAt (t : Int) : ParsedMessage → ParsedMessage
  | .book msg => .book { msg with receivedAt := t }
  | .priceChange msg => .priceChange { msg with receivedAt := t }
  | .unknown eventType => .unknown eventType

section Message

variable {t : Int} {v v' : Value}

theorem get?_unstamped {name : String} (hname : name ≠ receivedAtKey)
    (v : Value) : (unstamped v).get? name = (v.get? name).map unstamped := by
  cases v with
  | obj members => exact Node.find?_without hname members
  | _ => rfl

theorem Stamped.get? (h : Stamped t v v') (name : String)
    (hname : name ≠ receivedAtKey) :
    (v'.get? name).map unstamped = (v.get? name).map unstamped := by
  rw [← get?_unstamped hname, h.2, get?_unstamped hname]

theorem Stamped.readString (h : Stamped t v v') (name : String)
    (hname : name ≠ receivedAtKey) :
    readString (v'.get? name) = readString (v.get? name) := by
  rw [← readString_unstamped, h.get? name hname, readString_unstamped]

theorem Stamped.text (h : Stamped t v v') (name : String)
    (hname : name ≠ receivedAtKey) :
    (v'.get? name).map stringOrNumber
      = (v.get? name).map stringOrNumber := by
  rw [← map_stringOrNumber_unstamped, h.get? name hname,
    map_stringOrNumber_unstamped]

theorem Stamped.textDefault (h : Stamped t v v') (name : String)
    (hname : name ≠ receivedAtKey) :
    stringOrNumberDefault (v'.get? name)
      = stringOrNumberDefault (v.get? name) := by
  rw [← stringOrNumberDefault_unstamped, h.get? name hname,
    stringOrNumberDefault_unstamped]

theorem Stamped.vec (h : Stamped t v v') (name : String)
    (hname : name ≠ receivedAtKey) {α : Type*} {read : Value → Option α}
    (hread : ∀ v, read (unstamped v) = read v) :
    readVec read (v'.get? name) = readVec read (v.get? name) := by
  rw [← readVec_unstamped hread, h.get? name hname,
    readVec_unstamped hread]

theorem Stamped.receivedAt (h : Stamped t v v') (hlow : -2 ^ 63 ≤ t)
    (hhigh : t < 2 ^ 63) :
    readI64Default (v'.get? receivedAtKey) = some t := by
  rw [h.1]
  exact if_pos ⟨hlow, hhigh⟩

/-- The fields of an object. -/
theorem Stamped.fields (h : Stamped t v v') (names : List String) :
    structFields names v' = some fun name => v'.get? name := by
  cases v' with
  | obj members => rfl
  | _ => cases h.1

theorem Fresh.fields (h : Fresh v) (names : List String) :
    structFields names v = some fun name => v.get? name := by
  obtain ⟨members, rfl, -⟩ := h
  rfl

theorem Fresh.receivedAt (h : Fresh v) :
    readI64Default (v.get? receivedAtKey) = some 0 := by
  obtain ⟨members, rfl, hnone⟩ := h
  show readI64Default (members.find? receivedAtKey) = some 0
  rw [hnone]
  rfl

theorem book_stamped (h : Stamped t v v') (hfresh : Fresh v)
    (hlow : -2 ^ 63 ≤ t) (hhigh : t < 2 ^ 63) :
    RawBookMessage.ofValue v'
      = (RawBookMessage.ofValue v).map fun msg =>
          { msg with receivedAt := t } := by
  unfold RawBookMessage.ofValue
  rw [h.fields, hfresh.fields]
  have ht := h.receivedAt hlow hhigh
  have h0 := hfresh.receivedAt
  unfold receivedAtKey at ht h0
  simp only [Option.bind_eq_bind, Option.bind_some, ht, h0,
    h.readString "event_type" (by decide),
    h.readString "asset_id" (by decide), h.readString "market" (by decide),
    h.vec "bids" (by decide) level_unstamped,
    h.vec "asks" (by decide) level_unstamped,
    h.text "timestamp" (by decide), h.textDefault "hash" (by decide),
    Option.map_bind, Function.comp_def]
  rfl

theorem priceChange_stamped (h : Stamped t v v') (hfresh : Fresh v)
    (hlow : -2 ^ 63 ≤ t) (hhigh : t < 2 ^ 63) :
    RawPriceChangeMessage.ofValue v'
      = (RawPriceChangeMessage.ofValue v).map fun msg =>
          { msg with receivedAt := t } := by
  unfold RawPriceChangeMessage.ofValue
  rw [h.fields, hfresh.fields]
  have ht := h.receivedAt hlow hhigh
  have h0 := hfresh.receivedAt
  unfold receivedAtKey at ht h0
  simp only [Option.bind_eq_bind, Option.bind_some, ht, h0,
    h.readString "event_type" (by decide),
    h.readString "market" (by decide),
    h.vec "price_changes" (by decide) change_unstamped,
    h.text "timestamp" (by decide), Option.map_bind, Function.comp_def]
  rfl

/-- A message is read as before, but for the time of receipt. -/
theorem parseValue_stamped (h : Stamped t v v') (hfresh : Fresh v)
    (hlow : -2 ^ 63 ≤ t) (hhigh : t < 2 ^ 63) :
    parseValue v' = (parseValue v).map (ParsedMessage.receivedAt t) := by
  have htype : eventTypeOf v' = eventTypeOf v :=
    congrArg (·.getD "unknown") (h.readString "event_type" (by decide))
  unfold parseValue
  simp only [htype]
  split_ifs
  · rw [book_stamped h hfresh hlow hhigh, Option.map_map, Option.map_map]
    rfl
  · rw [priceChange_stamped h hfresh hlow hhigh, Option.map_map,
      Option.map_map]
    rfl
  · rfl

/-- So is what it becomes. -/
theorem transform_receivedAt (order : GroupOrder) (normalizedAt : String)
    (msg : ParsedMessage) :
    (msg.receivedAt t).transform order normalizedAt
      = (msg.transform order normalizedAt).map fun out =>
          { out with receivedAt := t } := by
  cases msg with
  | book msg => rfl
  | priceChange msg =>
      show transformPriceChange order { msg with receivedAt := t } _
        = (transformPriceChange order msg _).map _
      unfold transformPriceChange
      rw [List.map_map]
      rfl
  | unknown eventType => rfl

end Message

-- ================================================================ payloads

/-- The messages of a payload are read as before, but for the time of
receipt. -/
theorem parseAndTransform_stamped {J : SerdeJson} {t : Int}
    (hlow : -2 ^ 63 ≤ t) (hhigh : t < 2 ^ 63) {payload payload' : String}
    {v v' : Value} (hv : J.fromStr payload = some v)
    (hv' : J.fromStr payload' = some v')
    (hfresh : ∀ msg ∈ messages v, Fresh msg)
    (h : List.Forall₂ (Stamped t) (messages v) (messages v'))
    (orders : GroupOrders) (normalizedAt : String) :
    PolymarketAdapter.parseAndTransform J orders payload' normalizedAt
      = (PolymarketAdapter.parseAndTransform J orders payload
          normalizedAt).map
            (·.map fun out => { out with receivedAt := t }) := by
  have hparsed : (messages v').mapM parseValue
      = ((messages v).mapM parseValue).map
          (·.map (ParsedMessage.receivedAt t)) := by
    generalize messages v = vs at hfresh h
    generalize messages v' = vs' at h
    induction h with
    | nil => rfl
    | cons hhead _ ih =>
        have hfirst := parseValue_stamped hhead (hfresh _ (.head _)) hlow
          hhigh
        have htail := ih fun msg hmsg => hfresh msg (.tail _ hmsg)
        rw [List.mapM_cons, List.mapM_cons, hfirst, htail]
        cases parseValue _ with
        | none => rfl
        | some msg => cases List.mapM parseValue _ <;> rfl
  have hoff (parsed : List ParsedMessage) :
      (parsed.map (ParsedMessage.receivedAt t)).zipIdx.flatMap
          (fun x => x.1.transform (orders x.2) normalizedAt)
        = (parsed.zipIdx.flatMap fun x =>
            x.1.transform (orders x.2) normalizedAt).map fun out =>
              { out with receivedAt := t } := by
    rw [List.zipIdx_map, List.flatMap_map, List.map_flatMap]
    exact congrArg (List.flatMap · parsed.zipIdx) (funext fun x =>
      transform_receivedAt (orders x.2) normalizedAt x.1)
  unfold PolymarketAdapter.parseAndTransform parseAll
  rw [hv, hv', Option.bind_eq_bind, Option.bind_some, Option.bind_some,
    hparsed]
  cases (messages v).mapM parseValue with
  | none => rfl
  | some parsed => exact congrArg some (hoff parsed)

end Wup.Normalizer
