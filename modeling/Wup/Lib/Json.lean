/-
JSON: values, and the texts that denote them.

A value, a list of elements and a list of members are one family
(`Node`), so that one induction goes through all three. Members are kept
as written, repeated keys included; `get?` reads the last one, as a map
filled in order would. A number is an integer or a float, and a float is
the text it is printed as.

# Syntax

`Syn` is the syntax trees of the grammar: everything a text may vary in
without a change of its value (whitespace, the spelling of numbers and
strings) is in the tree, so a tree is a text (`Syn.text`), and the
grammar is the set of these texts. The elements of an array include its
closing bracket, the members of an object its closing brace.

A tree denotes a value (`Syn.value`) unless a number in it does not, which
is up to a parameter: how decimal text is rounded is not settled here.
String literals denote: one with a lone surrogate is not in the grammar.
-/
import Mathlib

namespace Wup.Json

-- ================================================================== values

/-- What a node is. -/
inductive Kind
  | value
  | elems
  | members
deriving DecidableEq, Repr

/-- A number. -/
inductive Number
  | int (n : Int)
  /-- A float, by the text it is printed as. -/
  | float (shown : String)
deriving DecidableEq, Repr

/-- Values, and what arrays and objects hold. -/
inductive Node : Kind → Type
  | null : Node .value
  | bool (b : Bool) : Node .value
  | num (n : Number) : Node .value
  | str (s : String) : Node .value
  | arr (elems : Node .elems) : Node .value
  | obj (members : Node .members) : Node .value
  | nil : Node .elems
  | cons (v : Node .value) (rest : Node .elems) : Node .elems
  | done : Node .members
  | member (key : String) (v : Node .value) (rest : Node .members) :
      Node .members
deriving DecidableEq, Repr

/-- A JSON value. -/
abbrev Value := Node .value

namespace Node

/-- The elements as a list. -/
def elemList : {k : Kind} → Node k → List Value
  | _, .cons v rest => v :: rest.elemList
  | _, _ => []

/-- The elements a list makes. -/
def ofElems : List Value → Node .elems
  | [] => .nil
  | v :: vs => .cons v (ofElems vs)

@[simp] theorem elemList_ofElems (vs : List Value) :
    (ofElems vs).elemList = vs := by
  induction vs with
  | nil => rfl
  | cons v vs ih => rw [ofElems, elemList, ih]

theorem ofElems_elemList {k : Kind} (n : Node k) (h : k = .elems) :
    HEq (ofElems n.elemList) n := by
  induction n with
  | nil => rfl
  | cons v rest _ ih => rw [elemList, ofElems, eq_of_heq (ih rfl)]
  | _ => cases h

/-- The members as a list. -/
def memberList : {k : Kind} → Node k → List (String × Value)
  | _, .member key v rest => (key, v) :: rest.memberList
  | _, _ => []

/-- The members a list makes. -/
def ofMembers : List (String × Value) → Node .members
  | [] => .done
  | (key, v) :: fields => .member key v (ofMembers fields)

@[simp] theorem memberList_ofMembers (fields : List (String × Value)) :
    (ofMembers fields).memberList = fields := by
  induction fields with
  | nil => rfl
  | cons e fields ih => rw [ofMembers, memberList, ih]

/-- The value of the last member under a key. -/
def find? (key : String) : {k : Kind} → Node k → Option Value
  | _, .member name v rest =>
      (rest.find? key).or (if name = key then some v else none)
  | _, _ => none

theorem find?_eq_none_iff {key : String} {k : Kind} {n : Node k} :
    n.find? key = none ↔ key ∉ n.memberList.map Prod.fst := by
  induction n with
  | member name v rest _ ih =>
      simp [find?, memberList, ih, eq_comm (a := key), and_comm]
  | _ => simp [find?, memberList]

/-- Of distinct keys, each has the value it is listed with. -/
theorem find?_ofMembers {fields : List (String × Value)}
    (h : (fields.map (·.1)).Nodup) {e : String × Value} (he : e ∈ fields) :
    (ofMembers fields).find? e.1 = some e.2 := by
  induction fields with
  | nil => cases he
  | cons e' fields ih =>
      obtain ⟨hfresh, hfields⟩ := List.nodup_cons.1 h
      rw [ofMembers, find?]
      rcases List.mem_cons.1 he with rfl | he
      · have hrest : (ofMembers fields).find? e.1 = none := by
          rw [find?_eq_none_iff, memberList_ofMembers]
          exact hfresh
        rw [hrest, if_pos rfl, Option.none_or]
      · rw [ih hfields he, Option.some_or]

/-- The value under a key, of an object. -/
def get? (key : String) : Value → Option Value
  | .obj members => members.find? key
  | _ => none

/-- `is_array`. -/
def isArr : Value → Bool
  | .arr _ => true
  | _ => false

/-- The value without the members under a key, here and inside. -/
def without (key : String) : {k : Kind} → Node k → Node k
  | _, .arr elems => .arr (elems.without key)
  | _, .obj members => .obj (members.without key)
  | _, .cons v rest => .cons (v.without key) (rest.without key)
  | _, .member name v rest =>
      if name = key then rest.without key
      else .member name (v.without key) (rest.without key)
  | _, n => n

theorem find?_without {name key : String} (h : name ≠ key) {k : Kind}
    (n : Node k) : (n.without key).find? name
      = (n.find? name).map fun v => v.without key := by
  induction n with
  | member name' v rest _ ih =>
      by_cases hkey : name' = key
      · have hname : name' ≠ name := fun h' => h (h'.symm.trans hkey)
        rw [without, if_pos hkey, ih, find?, if_neg hname, Option.or_none]
      · rw [without, if_neg hkey, find?, ih, find?, Option.map_or]
        split_ifs <;> rfl
  | _ => rfl

theorem elemList_without (key : String) {k : Kind} (n : Node k)
    (h : k = .elems) :
    (n.without key).elemList = n.elemList.map fun v => v.without key := by
  induction n with
  | cons v rest _ ih =>
      rw [without, elemList, elemList, ih rfl, List.map_cons]
  | nil => rfl
  | _ => cases h

/-- How deep arrays and objects are nested. -/
def depth : {k : Kind} → Node k → Nat
  | _, .arr elems => elems.depth + 1
  | _, .obj members => members.depth + 1
  | _, .cons v rest => max v.depth rest.depth
  | _, .member _ v rest => max v.depth rest.depth
  | _, _ => 0

theorem depth_ofElems_le {vs : List Value} {n : Nat}
    (h : ∀ v ∈ vs, v.depth ≤ n) : (ofElems vs).depth ≤ n := by
  induction vs with
  | nil => exact Nat.zero_le n
  | cons v vs ih =>
      obtain ⟨hv, hvs⟩ := List.forall_mem_cons.1 h
      exact Nat.max_le.2 ⟨hv, ih hvs⟩

theorem depth_ofMembers_le {fields : List (String × Value)} {n : Nat}
    (h : ∀ e ∈ fields, e.2.depth ≤ n) : (ofMembers fields).depth ≤ n := by
  induction fields with
  | nil => exact Nat.zero_le n
  | cons e fields ih =>
      obtain ⟨he, hfields⟩ := List.forall_mem_cons.1 h
      exact Nat.max_le.2 ⟨he, ih hfields⟩

end Node

-- ============================================================== characters

/-- The integer as text. -/
def intText (n : Int) : List Char :=
  (if n < 0 then ['-'] else []) ++ Nat.toDigits 10 n.natAbs

/-- The number as text. -/
def Number.toString : Number → String
  | .int n => String.ofList (intText n)
  | .float shown => shown

/-- Whitespace of the grammar. -/
def isWs (c : Char) : Bool := c = ' ' || c = '\t' || c = '\n' || c = '\r'

/-- The characters numbers are made of. -/
def isNumberChar (c : Char) : Bool :=
  c.isDigit || c = '-' || c = '+' || c = '.' || c = 'e' || c = 'E'

/-- Where in a number a reader stands. -/
inductive NumberState
  | start
  | minus
  | zero
  | int
  | point
  | frac
  | exp
  | expSign
  | expDigits
deriving DecidableEq, Repr

/-- The next character of a number. -/
def NumberState.step : NumberState → Char → Option NumberState
  | .start, c =>
      if c = '-' then some .minus else if c = '0' then some .zero
      else if c.isDigit then some .int else none
  | .minus, c =>
      if c = '0' then some .zero else if c.isDigit then some .int else none
  | .zero, c =>
      if c = '.' then some .point
      else if c = 'e' || c = 'E' then some .exp else none
  | .int, c =>
      if c.isDigit then some .int else if c = '.' then some .point
      else if c = 'e' || c = 'E' then some .exp else none
  | .point, c => if c.isDigit then some .frac else none
  | .frac, c =>
      if c.isDigit then some .frac
      else if c = 'e' || c = 'E' then some .exp else none
  | .exp, c =>
      if c.isDigit then some .expDigits
      else if c = '+' || c = '-' then some .expSign else none
  | .expSign, c => if c.isDigit then some .expDigits else none
  | .expDigits, c => if c.isDigit then some .expDigits else none

/-- A number may end here. -/
def NumberState.final : NumberState → Bool
  | .zero | .int | .frac | .expDigits => true
  | _ => false

/-- The text of a number. -/
def isNumber (cs : List Char) : Bool :=
  (cs.foldlM NumberState.step .start).any NumberState.final

/-- A piece of a string body: a character, or the code unit of a `u`
escape. -/
inductive Piece
  | char (c : Char)
  | codeUnit (n : Nat)
deriving DecidableEq, Repr

def hexDigit (c : Char) : Option Nat :=
  if c.isDigit then some (c.toNat - '0'.toNat)
  else if 'a' ≤ c ∧ c ≤ 'f' then some (c.toNat - 'a'.toNat + 10)
  else if 'A' ≤ c ∧ c ≤ 'F' then some (c.toNat - 'A'.toNat + 10)
  else none

/-- The character a backslash and this one stand for. -/
def escaped (c : Char) : Option Char :=
  if c = '"' then some '"' else if c = '\\' then some '\\'
  else if c = '/' then some '/' else if c = 'b' then some '\x08'
  else if c = 'f' then some '\x0c' else if c = 'n' then some '\n'
  else if c = 'r' then some '\r' else if c = 't' then some '\t'
  else none

/-- A character that stands for itself in a string body. -/
def isPlain (c : Char) : Bool := c ≠ '"' && c ≠ '\\' && 0x20 ≤ c.toNat

/-- Where in a string body a reader stands: between pieces, after a
backslash, or with digits of a `u` escape read. -/
inductive BodyState
  | between
  | backslash
  | hex (digits n : Nat)
deriving DecidableEq, Repr

/-- The pieces of a string body. -/
def pieces : BodyState → List Char → Option (List Piece)
  | .between, [] => some []
  | _, [] => none
  | .between, c :: cs =>
      if c = '\\' then pieces .backslash cs
      else if isPlain c then (pieces .between cs).map (.char c :: ·)
      else none
  | .backslash, c :: cs =>
      if c = 'u' then pieces (.hex 0 0) cs
      else (escaped c).bind fun e =>
        (pieces .between cs).map (.char e :: ·)
  | .hex digits n, c :: cs =>
      (hexDigit c).bind fun d =>
        if digits = 3 then
          (pieces .between cs).map (.codeUnit (16 * n + d) :: ·)
        else pieces (.hex (digits + 1) (16 * n + d)) cs

/-- Put the pieces together; a high surrogate waits for its low one. -/
def joinPieces : Option Nat → List Piece → Option (List Char)
  | none, [] => some []
  | some _, [] => none
  | none, .char c :: ps => (joinPieces none ps).map (c :: ·)
  | some _, .char _ :: _ => none
  | none, .codeUnit n :: ps =>
      if 0xD800 ≤ n ∧ n < 0xDC00 then joinPieces (some n) ps
      else if 0xDC00 ≤ n ∧ n < 0xE000 then none
      else (joinPieces none ps).map (Char.ofNat n :: ·)
  | some high, .codeUnit n :: ps =>
      if 0xDC00 ≤ n ∧ n < 0xE000 then
        (joinPieces none ps).map
          (Char.ofNat (0x10000 + (high - 0xD800) * 0x400 + (n - 0xDC00))
            :: ·)
      else none

/-- What a string body denotes. -/
def unescape (body : List Char) : Option String :=
  ((pieces .between body).bind (joinPieces none)).map String.ofList

-- ================================================================== syntax

/-- A run of whitespace. -/
abbrev Ws := { cs : List Char // cs.all isWs = true }

def noWs : Ws := ⟨[], rfl⟩

/-- A number literal. -/
abbrev NumberLit := { cs : List Char // isNumber cs = true }

/-- The body of a string literal. -/
abbrev StringLit := { cs : List Char // (unescape cs).isSome = true }

/-- What the literal denotes. -/
def StringLit.value (lit : StringLit) : String :=
  (unescape lit.1).get lit.2

/-- The literal, with its quotes. -/
def StringLit.text (lit : StringLit) : List Char := '"' :: lit.1 ++ ['"']

/-- Syntax trees. -/
inductive Syn : Kind → Type
  | null : Syn .value
  | bool (b : Bool) : Syn .value
  | num (lit : NumberLit) : Syn .value
  | str (lit : StringLit) : Syn .value
  | emptyArr (ws : Ws) : Syn .value
  | arr (elems : Syn .elems) : Syn .value
  | emptyObj (ws : Ws) : Syn .value
  | obj (members : Syn .members) : Syn .value
  | lastElem (before : Ws) (v : Syn .value) (after : Ws) : Syn .elems
  | elem (before : Ws) (v : Syn .value) (after : Ws)
      (rest : Syn .elems) : Syn .elems
  | lastMember (before : Ws) (key : StringLit) (colon colon' : Ws)
      (v : Syn .value) (after : Ws) : Syn .members
  | member (before : Ws) (key : StringLit) (colon colon' : Ws)
      (v : Syn .value) (after : Ws) (rest : Syn .members) : Syn .members

/-- A key with its colon. -/
def keyText (before : Ws) (key : StringLit) (colon colon' : Ws) :
    List Char :=
  before.1 ++ key.text ++ colon.1 ++ ':' :: colon'.1

namespace Syn

def text : {k : Kind} → Syn k → List Char
  | _, .null => ['n', 'u', 'l', 'l']
  | _, .bool true => ['t', 'r', 'u', 'e']
  | _, .bool false => ['f', 'a', 'l', 's', 'e']
  | _, .num lit => lit.1
  | _, .str lit => lit.text
  | _, .emptyArr ws => '[' :: ws.1 ++ [']']
  | _, .arr elems => '[' :: elems.text
  | _, .emptyObj ws => '{' :: ws.1 ++ ['}']
  | _, .obj members => '{' :: members.text
  | _, .lastElem before v after => before.1 ++ v.text ++ after.1 ++ [']']
  | _, .elem before v after rest =>
      before.1 ++ v.text ++ after.1 ++ ',' :: rest.text
  | _, .lastMember before key colon colon' v after =>
      keyText before key colon colon' ++ v.text ++ after.1 ++ ['}']
  | _, .member before key colon colon' v after rest =>
      keyText before key colon colon' ++ v.text ++ after.1
        ++ ',' :: rest.text

variable (number : List Char → Option Number)

/-- What a tree denotes. -/
def value : {k : Kind} → Syn k → Option (Node k)
  | _, .null => some .null
  | _, .bool b => some (.bool b)
  | _, .num lit => (number lit.1).map .num
  | _, .str lit => some (.str lit.value)
  | _, .emptyArr _ => some (.arr .nil)
  | _, .arr elems => elems.value.map .arr
  | _, .emptyObj _ => some (.obj .done)
  | _, .obj members => members.value.map .obj
  | _, .lastElem _ v _ => v.value.map (.cons · .nil)
  | _, .elem _ v _ rest =>
      v.value.bind fun v => rest.value.map (.cons v ·)
  | _, .lastMember _ key _ _ v _ =>
      v.value.map (.member key.value · .done)
  | _, .member _ key _ _ v _ rest =>
      v.value.bind fun v => rest.value.map (.member key.value v ·)

/-- How deep arrays and objects are nested. -/
def depth : {k : Kind} → Syn k → Nat
  | _, .emptyArr _ => 1
  | _, .arr elems => elems.depth + 1
  | _, .emptyObj _ => 1
  | _, .obj members => members.depth + 1
  | _, .lastElem _ v _ => v.depth
  | _, .elem _ v _ rest => max v.depth rest.depth
  | _, .lastMember _ _ _ _ v _ => v.depth
  | _, .member _ _ _ _ v _ rest => max v.depth rest.depth
  | _, _ => 0

end Syn

/-- A JSON text: a value with whitespace around it. -/
structure Document where
  before : Ws
  root : Syn .value
  after : Ws

/-- The text, as characters. -/
def Document.chars (d : Document) : List Char :=
  d.before.1 ++ d.root.text ++ d.after.1

/-- The text. -/
def Document.text (d : Document) : String := String.ofList d.chars

end Wup.Json
