/-
A JSON writer, and that what it writes reads back.

The writer leaves out whitespace and escapes what must be: quotes,
backslashes and the control characters. `exists_syn`: what it writes of a
value is the text of a tree that denotes the value, if the reader of
numbers reads the integers of the value as they are written (`Exact`).
-/
import Wup.Lib.Json

namespace Wup.Json

-- ================================================================= strings

/-- The digit of a value below 16. -/
def hexChar (n : Nat) : Char :=
  Char.ofNat (if n < 10 then '0'.toNat + n else 'a'.toNat + n - 10)

/-- A character in a string body. -/
def escapeChar (c : Char) : List Char :=
  if c = '"' then ['\\', '"'] else if c = '\\' then ['\\', '\\']
  else if c = '\x08' then ['\\', 'b'] else if c = '\x0c' then ['\\', 'f']
  else if c = '\n' then ['\\', 'n'] else if c = '\r' then ['\\', 'r']
  else if c = '\t' then ['\\', 't']
  else if c.toNat < 0x20 then
    ['\\', 'u', '0', '0', hexChar (c.toNat / 16), hexChar (c.toNat % 16)]
  else [c]

/-- The body of the literal that denotes a string. -/
def escape (s : String) : List Char := s.toList.flatMap escapeChar

private theorem hexDigit_hexChar {n : Nat} (h : n < 16) :
    hexDigit (hexChar n) = some n := by
  interval_cases n <;> rfl

/-- An escaped character is one piece, which stands for it. -/
private theorem pieces_escapeChar (c : Char) (cs : List Char) :
    ∃ p, pieces .between (escapeChar c ++ cs)
        = (pieces .between cs).map (p :: ·)
      ∧ ∀ ps, joinPieces none (p :: ps)
          = (joinPieces none ps).map (c :: ·) := by
  unfold escapeChar
  split_ifs with hq hb h8 hc hn hr ht hlow
  · exact ⟨.char c, by subst hq; rfl, fun _ => rfl⟩
  · exact ⟨.char c, by subst hb; rfl, fun _ => rfl⟩
  · exact ⟨.char c, by subst h8; rfl, fun _ => rfl⟩
  · exact ⟨.char c, by subst hc; rfl, fun _ => rfl⟩
  · exact ⟨.char c, by subst hn; rfl, fun _ => rfl⟩
  · exact ⟨.char c, by subst hr; rfl, fun _ => rfl⟩
  · exact ⟨.char c, by subst ht; rfl, fun _ => rfl⟩
  · have hhigh := hexDigit_hexChar (show c.toNat / 16 < 16 by omega)
    have hdigit := hexDigit_hexChar (show c.toNat % 16 < 16 by omega)
    have hzero : hexDigit '0' = some 0 := rfl
    have hcode : 16 * (c.toNat / 16) + c.toNat % 16 = c.toNat := by omega
    refine ⟨.codeUnit c.toNat, ?_, fun ps => ?_⟩
    · simp [pieces, hzero, hhigh, hdigit, hcode]
    · rw [joinPieces, if_neg (by omega), if_neg (by omega),
        Char.ofNat_toNat]
  · refine ⟨.char c, ?_, fun _ => rfl⟩
    have hplain : isPlain c = true := by
      simp [isPlain, hq, hb, Nat.le_of_not_lt hlow]
    simp [pieces, hb, hplain]

/-- An escaped string denotes the string. -/
theorem unescape_escape (s : String) : unescape (escape s) = some s := by
  have main : ∀ cs : List Char, ∃ ps,
      pieces .between (cs.flatMap escapeChar) = some ps
        ∧ joinPieces none ps = some cs := by
    intro cs
    induction cs with
    | nil => exact ⟨[], rfl, rfl⟩
    | cons c cs ih =>
        obtain ⟨ps, hps, hjoin⟩ := ih
        obtain ⟨p, hp, hc⟩ := pieces_escapeChar c (cs.flatMap escapeChar)
        refine ⟨p :: ps, ?_, ?_⟩
        · rw [List.flatMap_cons, hp, hps, Option.map_some]
        · rw [hc, hjoin, Option.map_some]
  obtain ⟨ps, hps, hjoin⟩ := main s.toList
  simp [unescape, escape, hps, hjoin]

/-- The literal of a string. -/
def StringLit.of (s : String) : StringLit :=
  ⟨escape s, by rw [unescape_escape]; rfl⟩

@[simp] theorem StringLit.value_of (s : String) :
    (StringLit.of s).value = s := by
  simp [StringLit.value, StringLit.of, unescape_escape]

-- ================================================================= numbers

private theorem step_digitChar {n : Nat} (h : n < 10)
    {state : NumberState} (hstate : state = .start ∨ state = .minus) :
    state.step n.digitChar = some (if n = 0 then .zero else .int) := by
  rcases hstate with rfl | rfl <;> interval_cases n <;> rfl

private theorem int_step_digitChar {n : Nat} (h : n < 10) :
    NumberState.int.step n.digitChar = some .int := by
  interval_cases n <;> rfl

private theorem foldlM_toDigits (n : Nat) {state : NumberState}
    (hstate : state = .start ∨ state = .minus) :
    (Nat.toDigits 10 n).foldlM NumberState.step state
      = some (if n = 0 then .zero else .int) := by
  induction n using Nat.strong_induction_on with
  | _ n ih =>
      by_cases h : n < 10
      · rw [Nat.toDigits_of_lt_base h]
        simp [step_digitChar h hstate]
      · have hdiv := ih (n / 10) (by omega)
        have hne : n / 10 ≠ 0 ∧ n ≠ 0 := by omega
        rw [if_neg hne.1] at hdiv
        rw [Nat.toDigits_of_base_le (by decide) (by omega),
          List.foldlM_append, hdiv, if_neg hne.2]
        simp [int_step_digitChar (Nat.mod_lt n (by decide))]

/-- An integer is written as a number. -/
theorem isNumber_intText (n : Int) : isNumber (intText n) = true := by
  unfold isNumber intText
  split_ifs
  · have hminus : NumberState.start.step '-' = some .minus := rfl
    rw [List.singleton_append, List.foldlM_cons, hminus]
    have h := foldlM_toDigits n.natAbs (.inr rfl)
    simp only [Option.bind_eq_bind, Option.bind_some, h]
    split_ifs <;> rfl
  · rw [List.nil_append, foldlM_toDigits n.natAbs (.inl rfl)]
    split_ifs <;> rfl

/-- The literal of an integer. -/
def NumberLit.ofInt (n : Int) : NumberLit := ⟨intText n, isNumber_intText n⟩

-- ================================================================== values

namespace Node

/-- The text of a value; elements and members come with the bracket that
closes them. -/
def write : {k : Kind} → Node k → List Char
  | _, .null => ['n', 'u', 'l', 'l']
  | _, .bool true => ['t', 'r', 'u', 'e']
  | _, .bool false => ['f', 'a', 'l', 's', 'e']
  | _, .num n => n.toString.toList
  | _, .str s => '"' :: escape s ++ ['"']
  | _, .arr elems => '[' :: elems.write
  | _, .obj members => '{' :: members.write
  | _, .nil => [']']
  | _, .cons v .nil => v.write ++ [']']
  | _, .cons v rest => v.write ++ ',' :: rest.write
  | _, .done => ['}']
  | _, .member key v .done =>
      '"' :: escape key ++ '"' :: ':' :: v.write ++ ['}']
  | _, .member key v rest =>
      '"' :: escape key ++ '"' :: ':' :: v.write ++ ',' :: rest.write

variable (number : List Char → Option Number)

/-- The value is written without loss: keys are distinct, and each number
is an integer that is read as it is written. -/
def Exact : {k : Kind} → Node k → Prop
  | _, .num (.int n) => number (intText n) = some (.int n)
  | _, .num (.float _) => False
  | _, .arr elems => elems.Exact
  | _, .obj members => members.Exact
  | _, .cons v rest => v.Exact ∧ rest.Exact
  | _, .member key v rest =>
      rest.find? key = none ∧ v.Exact ∧ rest.Exact
  | _, _ => True

theorem exact_ofElems {vs : List Value} (h : ∀ v ∈ vs, v.Exact number) :
    (ofElems vs).Exact number := by
  induction vs with
  | nil => trivial
  | cons v vs ih =>
      obtain ⟨hv, hvs⟩ := List.forall_mem_cons.1 h
      exact ⟨hv, ih hvs⟩

theorem exact_ofMembers {fields : List (String × Value)}
    (hkeys : (fields.map (·.1)).Nodup)
    (h : ∀ e ∈ fields, e.2.Exact number) :
    (ofMembers fields).Exact number := by
  induction fields with
  | nil => trivial
  | cons e fields ih =>
      obtain ⟨hfresh, hrest⟩ := List.nodup_cons.1 hkeys
      obtain ⟨he, hfields⟩ := List.forall_mem_cons.1 h
      refine ⟨?_, he, ih hrest hfields⟩
      rw [find?_eq_none_iff, memberList_ofMembers]
      exact hfresh

/-- The value is written without loss and nests at most so deep. -/
def Printable (n : Nat) (v : Value) : Prop :=
  v.Exact number ∧ v.depth ≤ n

/-- There are neither elements nor members. -/
def isEmpty : {k : Kind} → Node k → Bool
  | _, .nil => true
  | _, .done => true
  | _, _ => false

variable {number} {n : Nat}

theorem Printable.str (s : String) : Printable number n (.str s) :=
  ⟨trivial, Nat.zero_le n⟩

theorem Printable.bool (b : Bool) : Printable number n (.bool b) :=
  ⟨trivial, Nat.zero_le n⟩

theorem Printable.null : Printable number n .null :=
  ⟨trivial, Nat.zero_le n⟩

theorem Printable.int {i : Int} (h : number (intText i) = some (.int i)) :
    Printable number n (.num (.int i)) :=
  ⟨h, Nat.zero_le n⟩

/-- An array of what is written of each element. -/
theorem Printable.vec {α : Type} {write : α → Value} {as : List α}
    (h : ∀ a ∈ as, Printable number n (write a)) :
    Printable number (n + 1) (.arr (.ofElems (as.map write))) := by
  have helems : ∀ v ∈ as.map write, Printable number n v :=
    List.forall_mem_map.2 h
  exact ⟨exact_ofElems number fun v hv => (helems v hv).1,
    Nat.succ_le_succ (depth_ofElems_le fun v hv => (helems v hv).2)⟩

/-- An object with distinct keys. -/
theorem Printable.record {fields : List (String × Value)}
    (hkeys : (fields.map (·.1)).Nodup)
    (h : ∀ e ∈ fields, Printable number n e.2) :
    Printable number (n + 1) (.obj (.ofMembers fields)) :=
  ⟨exact_ofMembers number hkeys fun e he => (h e he).1,
    Nat.succ_le_succ (depth_ofMembers_le fun e he => (h e he).2)⟩

/-- What is written of a value is the text of a tree that denotes it. -/
theorem exists_syn {k : Kind} (v : Node k) (hexact : v.Exact number)
    (hne : v.isEmpty = false) :
    ∃ d : Syn k, d.text = v.write ∧ d.value number = some v
      ∧ d.depth = v.depth := by
  induction v with
  | null => exact ⟨.null, rfl, rfl, rfl⟩
  | bool b => exact ⟨.bool b, by cases b <;> rfl, rfl, rfl⟩
  | num n =>
      cases n with
      | int n =>
          refine ⟨.num (.ofInt n), ?_, ?_, rfl⟩
          · simp [Syn.text, NumberLit.ofInt, write, Number.toString]
          · have hread : number (NumberLit.ofInt n).1 = some (.int n) :=
              hexact
            rw [Syn.value, hread, Option.map_some]
      | float shown => exact hexact.elim
  | str s =>
      refine ⟨.str (.of s), rfl, ?_, rfl⟩
      rw [Syn.value, StringLit.value_of]
  | arr elems ih =>
      by_cases he : elems.isEmpty = true
      · cases elems with
        | nil => exact ⟨.emptyArr noWs, rfl, rfl, rfl⟩
        | cons v rest => cases he
      · obtain ⟨d, htext, hvalue, hdepth⟩ :=
          ih hexact (Bool.eq_false_iff.2 he)
        refine ⟨.arr d, ?_, ?_, ?_⟩
        · rw [Syn.text, htext, write]
        · rw [Syn.value, hvalue, Option.map_some]
        · rw [Syn.depth, hdepth, depth]
  | obj members ih =>
      by_cases he : members.isEmpty = true
      · cases members with
        | done => exact ⟨.emptyObj noWs, rfl, rfl, rfl⟩
        | member key v rest => cases he
      · obtain ⟨d, htext, hvalue, hdepth⟩ :=
          ih hexact (Bool.eq_false_iff.2 he)
        refine ⟨.obj d, ?_, ?_, ?_⟩
        · rw [Syn.text, htext, write]
        · rw [Syn.value, hvalue, Option.map_some]
        · rw [Syn.depth, hdepth, depth]
  | nil => cases hne
  | cons v rest ihv ih =>
      obtain ⟨d, htext, hvalue, hdepth⟩ := ihv hexact.1 (by cases v <;> rfl)
      cases rest with
      | nil =>
          refine ⟨.lastElem noWs d noWs, ?_, ?_, ?_⟩
          · simp [Syn.text, noWs, htext, write]
          · simp [Syn.value, hvalue]
          · simp [Syn.depth, hdepth, depth]
      | cons v' rest =>
          obtain ⟨ds, htexts, hvalues, hdepths⟩ := ih hexact.2 rfl
          refine ⟨.elem noWs d noWs ds, ?_, ?_, ?_⟩
          · simp [Syn.text, noWs, htext, htexts, write]
          · simp [Syn.value, hvalue, hvalues]
          · rw [Syn.depth, hdepth, hdepths]
            rfl
  | done => cases hne
  | member key v rest ihv ih =>
      obtain ⟨d, htext, hvalue, hdepth⟩ :=
        ihv hexact.2.1 (by cases v <;> rfl)
      cases rest with
      | done =>
          refine ⟨.lastMember noWs (.of key) noWs noWs d noWs, ?_, ?_, ?_⟩
          · simp [Syn.text, keyText, StringLit.text, StringLit.of, noWs,
              htext, write]
          · simp [Syn.value, hvalue]
          · simp [Syn.depth, hdepth, depth]
      | member key' v' rest =>
          obtain ⟨ds, htexts, hvalues, hdepths⟩ := ih hexact.2.2 rfl
          refine ⟨.member noWs (.of key) noWs noWs d noWs ds, ?_, ?_, ?_⟩
          · simp [Syn.text, keyText, StringLit.text, StringLit.of, noWs,
              htext, htexts, write]
          · simp [Syn.value, hvalue, hvalues]
          · rw [Syn.depth, hdepth, hdepths]
            rfl

end Node

end Wup.Json
