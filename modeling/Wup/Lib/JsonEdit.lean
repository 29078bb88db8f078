/-
Editing JSON as text: a member is added to objects.

A member is put in front of an object by writing it and a comma after the
brace. Where a text is searched for braces that a quote follows
(`replacePair`), this is done to every object whose first key follows its
brace directly (`Syn.addFirst`), so long as no string ends in a brace
(`text_addFirst`); where one does, the brace and the closing quote are
taken for the start of an object, and what comes out is no JSON
(`Document.writeFirst_ne`).
-/
import Wup.Lib.JsonScan

namespace Wup.Json

-- ============================================================= replacement

/-- Replace every occurrence of a pair of characters, from left to
right. -/
def replacePair (a b : Char) (new : List Char) : List Char → List Char
  | [] => []
  | [c] => [c]
  | c :: c' :: cs =>
      if c = a ∧ c' = b then new ++ replacePair a b new cs
      else c :: replacePair a b new (c' :: cs)

section ReplacePair

variable {a b : Char} {new : List Char}

theorem replacePair_cons {c : Char} {cs : List Char}
    (h : c = a → cs.head? ≠ some b) :
    replacePair a b new (c :: cs) = c :: replacePair a b new cs := by
  cases cs with
  | nil => rfl
  | cons c' cs =>
      rw [replacePair, if_neg]
      rintro ⟨hc, rfl⟩
      exact h hc rfl

theorem replacePair_skip {cs : List Char} (h : a ∉ cs) (rest : List Char) :
    replacePair a b new (cs ++ rest) = cs ++ replacePair a b new rest := by
  induction cs with
  | nil => rfl
  | cons c cs ih =>
      rw [List.cons_append, replacePair_cons, List.cons_append,
        ih fun hmem => h (.tail _ hmem)]
      rintro rfl
      exact absurd (.head _) h

end ReplacePair

-- ========================================================= adding a member

/-- A member in front of others. -/
def memberText (key : StringLit) (v : Syn .value) : List Char :=
  key.text ++ ':' :: v.text ++ [',']

namespace Syn

/-- The string literals, keys included. -/
def literals : {k : Kind} → Syn k → List StringLit
  | _, .str lit => [lit]
  | _, .arr elems => elems.literals
  | _, .obj members => members.literals
  | _, .lastElem _ v _ => v.literals
  | _, .elem _ v _ rest => v.literals ++ rest.literals
  | _, .lastMember _ key _ _ v _ => key :: v.literals
  | _, .member _ key _ _ v _ rest => key :: (v.literals ++ rest.literals)
  | _, _ => []

/-- The first key comes without whitespace before it. -/
def startsWithKey : {k : Kind} → Syn k → Bool
  | _, .lastMember before _ _ _ _ _ => before.1.isEmpty
  | _, .member before _ _ _ _ _ _ => before.1.isEmpty
  | _, _ => false

/-- How many objects there are whose first key follows their brace
directly. -/
def openings : {k : Kind} → Syn k → Nat
  | _, .arr elems => elems.openings
  | _, .obj members =>
      members.openings + if members.startsWithKey then 1 else 0
  | _, .lastElem _ v _ => v.openings
  | _, .elem _ v _ rest => v.openings + rest.openings
  | _, .lastMember _ _ _ _ v _ => v.openings
  | _, .member _ _ _ _ v _ rest => v.openings + rest.openings
  | _, _ => 0

variable (key : StringLit) (v : Syn .value)

/-- Add a member to every object whose first key follows its brace
directly. -/
def addFirst : {k : Kind} → Syn k → Syn k
  | _, .arr elems => .arr elems.addFirst
  | _, .obj members =>
      if members.startsWithKey then
        .obj (.member noWs key noWs noWs v noWs members.addFirst)
      else .obj members.addFirst
  | _, .lastElem before w after => .lastElem before w.addFirst after
  | _, .elem before w after rest =>
      .elem before w.addFirst after rest.addFirst
  | _, .lastMember before name colon colon' w after =>
      .lastMember before name colon colon' w.addFirst after
  | _, .member before name colon colon' w after rest =>
      .member before name colon colon' w.addFirst after rest.addFirst
  | _, d => d

end Syn

/-- Write a member behind every brace that a quote follows. -/
def writeFirst (key : StringLit) (v : Syn .value) :
    List Char → List Char :=
  replacePair '{' '"' ('{' :: memberText key v ++ ['"'])

-- ================================================================ the text

section Text

variable {key : StringLit} {v : Syn .value}

private theorem writeFirst_skip {cs : List Char} (h : '{' ∉ cs)
    (rest : List Char) :
    writeFirst key v (cs ++ rest) = cs ++ writeFirst key v rest :=
  replacePair_skip h rest

private theorem writeFirst_cons {c : Char} (h : c ≠ '{') (cs : List Char) :
    writeFirst key v (c :: cs) = c :: writeFirst key v cs :=
  replacePair_cons fun hc => absurd hc h

private theorem notMem_ws (ws : Ws) : '{' ∉ ws.1 := by
  intro h
  have hws := List.all_eq_true.1 ws.2 _ h
  cases hws

private theorem notMem_number (lit : NumberLit) : '{' ∉ lit.1 := by
  intro h
  have hnum := List.all_eq_true.1 lit.all_isNumberChar _ h
  cases hnum

/-- Inside a string body a brace is followed by a quote at the end
only. -/
private theorem writeFirst_body {state : BodyState} {body : List Char}
    (h : (pieces state body).isSome = true)
    (hlast : body.getLast? ≠ some '{') (rest : List Char) :
    writeFirst key v (body ++ '"' :: rest)
      = body ++ '"' :: writeFirst key v rest := by
  induction body generalizing state with
  | nil => exact replacePair_cons fun h => by cases h
  | cons c cs ih =>
      obtain ⟨state', hcs, hbackslash, -⟩ := pieces_cons h
      have htail : cs.getLast? ≠ some '{' := by
        cases cs with
        | nil => simp
        | cons c' cs => simpa using hlast
      rw [List.cons_append, List.cons_append, ← ih hcs htail]
      refine replacePair_cons fun hc => ?_
      cases cs with
      | nil =>
          rw [hc] at hlast
          exact absurd rfl hlast
      | cons c' cs =>
          obtain ⟨-, -, -, hquote⟩ := pieces_cons hcs
          have hstate : state' ≠ .backslash := by
            intro h
            rw [hc] at hbackslash
            exact absurd (hbackslash.1 h).2 (by decide)
          simpa using hquote hstate

theorem writeFirst_string {lit : StringLit}
    (h : lit.1.getLast? ≠ some '{') (rest : List Char) :
    writeFirst key v (lit.text ++ rest)
      = lit.text ++ writeFirst key v rest := by
  have hsplit (rest : List Char) :
      lit.text ++ rest = '"' :: (lit.1 ++ '"' :: rest) := by
    simp [StringLit.text]
  rw [hsplit, hsplit, writeFirst_cons (by decide),
    writeFirst_body lit.pieces_isSome h]

theorem writeFirst_key {name : StringLit}
    (h : name.1.getLast? ≠ some '{') (before colon colon' : Ws)
    (rest : List Char) :
    writeFirst key v (keyText before name colon colon' ++ rest)
      = keyText before name colon colon' ++ writeFirst key v rest := by
  have hsplit (rest : List Char) :
      keyText before name colon colon' ++ rest
        = before.1 ++ (name.text
          ++ ((colon.1 ++ ':' :: colon'.1) ++ rest)) := by
    simp [keyText]
  have hcolon : '{' ∉ colon.1 ++ ':' :: colon'.1 := by
    simp [notMem_ws]
  rw [hsplit, hsplit, writeFirst_skip (notMem_ws before),
    writeFirst_string h, writeFirst_skip hcolon]

/-- What starts with whitespace does not start with a quote. -/
private theorem head_ws (ws : Ws) {rest : List Char}
    (h : ws.1 = [] → rest.head? ≠ some '"') :
    (ws.1 ++ rest).head? ≠ some '"' := by
  obtain ⟨cs, hcs⟩ := ws
  cases cs with
  | nil => exact h rfl
  | cons c cs =>
      intro hc
      obtain rfl : c = '"' := Option.some.inj hc
      cases List.all_eq_true.1 hcs '"' (.head _)

/-- A first key that does not follow its brace directly. -/
private theorem head_members {members : Syn .members}
    (h : members.startsWithKey = false) (rest : List Char) :
    (members.text ++ rest).head? ≠ some '"' := by
  cases members with
  | lastMember before name colon colon' w after =>
      simp only [Syn.text, keyText, List.append_assoc]
      refine head_ws before fun hnil => ?_
      rw [Syn.startsWithKey, hnil] at h
      cases h
  | member before name colon colon' w after tail =>
      simp only [Syn.text, keyText, List.append_assoc]
      refine head_ws before fun hnil => ?_
      rw [Syn.startsWithKey, hnil] at h
      cases h

/-- A first key that does. -/
private theorem members_eq_quote {members : Syn .members}
    (h : members.startsWithKey = true) :
    ∃ cs, members.text = '"' :: cs := by
  cases members with
  | lastMember before name colon colon' w after =>
      have hbefore : before.1 = [] := List.isEmpty_iff.1 h
      exact ⟨_, by
        simp [Syn.text, keyText, StringLit.text, hbefore]
        rfl⟩
  | member before name colon colon' w after tail =>
      have hbefore : before.1 = [] := List.isEmpty_iff.1 h
      exact ⟨_, by
        simp [Syn.text, keyText, StringLit.text, hbefore]
        rfl⟩

/-- Writing the member behind the braces adds it to the objects. -/
theorem text_addFirst {k : Kind} (d : Syn k)
    (h : ∀ lit ∈ d.literals, lit.1.getLast? ≠ some '{')
    (rest : List Char) :
    writeFirst key v (d.text ++ rest)
      = (Syn.addFirst key v d).text ++ writeFirst key v rest := by
  have hclose (ws : Ws) {c : Char} (hc : c ≠ '{') (rest : List Char) :
      writeFirst key v (ws.1 ++ c :: rest)
        = ws.1 ++ c :: writeFirst key v rest := by
    rw [writeFirst_skip (notMem_ws ws), writeFirst_cons hc]
  induction d generalizing rest with
  | null =>
      have hskip : '{' ∉ Syn.null.text := by decide
      exact writeFirst_skip hskip rest
  | bool b =>
      have hskip : '{' ∉ (Syn.bool b).text := by cases b <;> decide
      have hsame : Syn.addFirst key v (.bool b) = .bool b := rfl
      rw [hsame]
      exact writeFirst_skip hskip rest
  | num lit => exact writeFirst_skip (notMem_number lit) rest
  | str lit => exact writeFirst_string (h lit (.head _)) rest
  | emptyArr ws =>
      have hskip : '{' ∉ (Syn.emptyArr ws).text := by
        simp [Syn.text, notMem_ws]
      exact writeFirst_skip hskip rest
  | arr elems ih =>
      have hopen : writeFirst key v ('[' :: (elems.text ++ rest))
          = '[' :: writeFirst key v (elems.text ++ rest) :=
        writeFirst_cons (by decide) _
      rw [ih h rest] at hopen
      exact hopen
  | emptyObj ws =>
      simp only [Syn.text, Syn.addFirst, List.append_assoc,
        List.cons_append, List.nil_append]
      rw [← hclose ws (by decide)]
      exact replacePair_cons fun _ => head_ws ws fun _ => by simp
  | obj members ih =>
      have hmembers := ih h rest
      cases hfirst : members.startsWithKey with
      | true =>
          obtain ⟨cs, hcs⟩ := members_eq_quote hfirst
          have htext : (Syn.addFirst key v (.obj members)).text
              = '{' :: (memberText key v
                ++ (Syn.addFirst key v members).text) := by
            simp [Syn.addFirst, hfirst, Syn.text, keyText, memberText, noWs]
          have hopen : writeFirst key v ('{' :: '"' :: (cs ++ rest))
              = ('{' :: memberText key v ++ ['"'])
                ++ writeFirst key v (cs ++ rest) := by
            rw [writeFirst, replacePair, if_pos ⟨rfl, rfl⟩]
          rw [hcs, List.cons_append, writeFirst_cons (by decide)] at hmembers
          rw [htext, Syn.text, hcs]
          simp only [List.cons_append, List.append_assoc,
            List.nil_append] at hopen ⊢
          rw [hopen, hmembers]
      | false =>
          have htext : (Syn.addFirst key v (.obj members)).text
              = '{' :: (Syn.addFirst key v members).text := by
            simp [Syn.addFirst, hfirst, Syn.text]
          rw [htext, List.cons_append, ← hmembers]
          exact replacePair_cons fun _ => head_members hfirst rest
  | lastElem before w after ih =>
      simp only [Syn.text, Syn.addFirst, List.append_assoc,
        List.cons_append, List.nil_append]
      rw [writeFirst_skip (notMem_ws before), ih h,
        hclose after (by decide)]
  | elem before w after tail ihw ih =>
      simp only [Syn.text, Syn.addFirst, List.append_assoc,
        List.cons_append]
      rw [writeFirst_skip (notMem_ws before),
        ihw fun lit hlit => h lit (List.mem_append_left _ hlit),
        hclose after (by decide),
        ih fun lit hlit => h lit (List.mem_append_right _ hlit)]
  | lastMember before name colon colon' w after ih =>
      simp only [Syn.text, Syn.addFirst, List.append_assoc,
        List.cons_append, List.nil_append]
      rw [writeFirst_key (h name (.head _)),
        ih fun lit hlit => h lit (.tail _ hlit),
        hclose after (by decide)]
  | member before name colon colon' w after tail ihw ih =>
      simp only [Syn.text, Syn.addFirst, List.append_assoc,
        List.cons_append]
      rw [writeFirst_key (h name (.head _)),
        ihw fun lit hlit => h lit (.tail _ (List.mem_append_left _ hlit)),
        hclose after (by decide),
        ih fun lit hlit => h lit (.tail _ (List.mem_append_right _ hlit))]

end Text

-- =============================================================== the value

section Value

variable {key : StringLit} {v : Syn .value}

variable (key) in
/-- A member that is no array and no object nests nothing deeper. -/
theorem depth_addFirst (hv : v.depth = 0) {k : Kind} (d : Syn k) :
    (Syn.addFirst key v d).depth = d.depth := by
  induction d with
  | arr elems ih => rw [Syn.addFirst, Syn.depth, Syn.depth, ih]
  | obj members ih =>
      rw [Syn.addFirst]
      split_ifs
      · rw [Syn.depth, Syn.depth, Syn.depth, ih, hv, Nat.zero_max]
      · rw [Syn.depth, Syn.depth, ih]
  | lastElem before w after ih => exact ih
  | elem before w after tail ihw ih =>
      rw [Syn.addFirst, Syn.depth, Syn.depth, ihw, ih]
  | lastMember before name colon colon' w after ih => exact ih
  | member before name colon colon' w after tail ihw ih =>
      rw [Syn.addFirst, Syn.depth, Syn.depth, ihw, ih]
  | _ => rfl

variable (key) in
/-- What a tree with the member added denotes: the same but for members
under its key, and with the same keys at the top. -/
theorem value_addFirst {number : List Char → Option Number} {x : Value}
    (hv : v.value number = some x) {k : Kind} (d : Syn k) {n : Node k}
    (h : d.value number = some n) :
    ∃ n', (Syn.addFirst key v d).value number = some n'
      ∧ n'.without key.value = n.without key.value
      ∧ n'.memberList.map Prod.fst = n.memberList.map Prod.fst := by
  induction d with
  | arr elems ih =>
      obtain ⟨es, hes, rfl⟩ := Option.map_eq_some_iff.1 h
      obtain ⟨es', hes', hwithout, -⟩ := ih hes
      refine ⟨.arr es', ?_, ?_, rfl⟩
      · rw [Syn.addFirst, Syn.value, hes', Option.map_some]
      · rw [Node.without, Node.without, hwithout]
  | obj members ih =>
      obtain ⟨ms, hms, rfl⟩ := Option.map_eq_some_iff.1 h
      obtain ⟨ms', hms', hwithout, -⟩ := ih hms
      cases hfirst : members.startsWithKey with
      | true =>
          refine ⟨.obj (.member key.value x ms'), ?_, ?_, rfl⟩
          · simp [Syn.addFirst, hfirst, Syn.value, hv, hms']
          · simp [Node.without, hwithout]
      | false =>
          refine ⟨.obj ms', ?_, ?_, rfl⟩
          · simp [Syn.addFirst, hfirst, Syn.value, hms']
          · rw [Node.without, Node.without, hwithout]
  | lastElem before w after ih =>
      obtain ⟨y, hy, rfl⟩ := Option.map_eq_some_iff.1 h
      obtain ⟨y', hy', hwithout, -⟩ := ih hy
      refine ⟨.cons y' .nil, ?_, ?_, rfl⟩
      · rw [Syn.addFirst, Syn.value, hy', Option.map_some]
      · rw [Node.without, Node.without, hwithout]
  | elem before w after tail ihw ih =>
      obtain ⟨y, hy, h⟩ := Option.bind_eq_some_iff.1 h
      obtain ⟨ys, hys, rfl⟩ := Option.map_eq_some_iff.1 h
      obtain ⟨y', hy', hwithout, -⟩ := ihw hy
      obtain ⟨ys', hys', hwithouts, -⟩ := ih hys
      refine ⟨.cons y' ys', ?_, ?_, rfl⟩
      · rw [Syn.addFirst, Syn.value, hy', Option.bind_some, hys',
          Option.map_some]
      · rw [Node.without, Node.without, hwithout, hwithouts]
  | lastMember before name colon colon' w after ih =>
      obtain ⟨y, hy, rfl⟩ := Option.map_eq_some_iff.1 h
      obtain ⟨y', hy', hwithout, -⟩ := ih hy
      refine ⟨.member name.value y' .done, ?_, ?_, rfl⟩
      · rw [Syn.addFirst, Syn.value, hy', Option.map_some]
      · rw [Node.without, Node.without, hwithout]
  | member before name colon colon' w after tail ihw ih =>
      obtain ⟨y, hy, h⟩ := Option.bind_eq_some_iff.1 h
      obtain ⟨ys, hys, rfl⟩ := Option.map_eq_some_iff.1 h
      obtain ⟨y', hy', hwithout, -⟩ := ihw hy
      obtain ⟨ys', hys', hwithouts, hkeys⟩ := ih hys
      refine ⟨.member name.value y' ys', ?_, ?_, ?_⟩
      · rw [Syn.addFirst, Syn.value, hy', Option.bind_some, hys',
          Option.map_some]
      · rw [Node.without, Node.without, hwithout, hwithouts]
      · rw [Node.memberList, Node.memberList, List.map_cons, List.map_cons,
          hkeys]
  | _ => exact ⟨n, h, rfl, rfl⟩

variable (key v) in
/-- Where there is nothing to add to, nothing changes. -/
theorem addFirst_eq_self {k : Kind} (d : Syn k) (h : d.openings = 0) :
    Syn.addFirst key v d = d := by
  induction d with
  | arr elems ih => rw [Syn.addFirst, ih h]
  | obj members ih =>
      rw [Syn.openings] at h
      split_ifs at h with hfirst
      rw [Syn.addFirst, if_neg hfirst, ih h]
  | lastElem before w after ih => rw [Syn.addFirst, ih h]
  | elem before w after tail ihw ih =>
      obtain ⟨hw, htail⟩ := Nat.add_eq_zero_iff.1 h
      rw [Syn.addFirst, ihw hw, ih htail]
  | lastMember before name colon colon' w after ih =>
      rw [Syn.addFirst, ih h]
  | member before name colon colon' w after tail ihw ih =>
      obtain ⟨hw, htail⟩ := Nat.add_eq_zero_iff.1 h
      rw [Syn.addFirst, ihw hw, ih htail]
  | _ => rfl

end Value

-- ============================================================ the elements

/-- The elements of an array. -/
def Syn.elemTrees : {k : Kind} → Syn k → List (Syn .value)
  | _, .lastElem _ v _ => [v]
  | _, .elem _ v _ rest => v :: rest.elemTrees
  | _, _ => []

theorem elemTrees_addFirst (key : StringLit) (v : Syn .value) {k : Kind}
    (d : Syn k) (h : k = .elems) :
    (Syn.addFirst key v d).elemTrees
      = d.elemTrees.map (Syn.addFirst key v) := by
  induction d with
  | lastElem before w after _ => rfl
  | elem before w after tail _ ih =>
      rw [Syn.addFirst, Syn.elemTrees, Syn.elemTrees, ih rfl, List.map_cons]
  | _ => cases h

theorem value_elemTrees {number : List Char → Option Number} {k : Kind}
    (d : Syn k) (h : k = .elems) {n : Node k}
    (hn : d.value number = some n) :
    List.Forall₂ (fun e x => e.value number = some x) d.elemTrees
      n.elemList := by
  induction d with
  | lastElem before w after _ =>
      obtain ⟨x, hx, rfl⟩ := Option.map_eq_some_iff.1 hn
      exact .cons hx .nil
  | elem before w after tail _ ih =>
      obtain ⟨x, hx, hn⟩ := Option.bind_eq_some_iff.1 hn
      obtain ⟨xs, hxs, rfl⟩ := Option.map_eq_some_iff.1 hn
      exact .cons hx (ih rfl hxs)
  | _ => cases h

-- ============================================= strings that end in a brace

/-- Somewhere inside a string there is a brace with a quote after it. -/
def BraceQuote : ScanState → List Char → Prop
  | s, c :: c' :: cs =>
      (c = '{' ∧ c' = '"' ∧ (s = .inside ∨ s = .escape))
        ∨ ∃ s' ∈ s.step c, BraceQuote s' (c' :: cs)
  | _, _ => False

theorem BraceQuote.tail {cs : List Char} (h : BraceQuote .free ('"' :: cs)) :
    BraceQuote .inside cs := by
  cases cs with
  | nil => cases h
  | cons c cs =>
      rcases h with ⟨hc, -⟩ | ⟨s, hs, h⟩
      · cases hc
      · obtain rfl := Option.some.inj hs
        exact h

theorem BraceQuote.append {s s' : ScanState} {cs rest : List Char}
    (hscan : scan s cs = some s') (h : BraceQuote s' rest) :
    BraceQuote s (cs ++ rest) := by
  induction cs generalizing s with
  | nil =>
      obtain rfl := Option.some.inj hscan
      exact h
  | cons c cs ih =>
      obtain ⟨s₁, hs₁, hscan⟩ := Option.bind_eq_some_iff.1 hscan
      have htail := ih hscan
      rw [List.cons_append]
      cases hcs : cs ++ rest with
      | nil =>
          rw [hcs] at htail
          cases htail
      | cons c' tail =>
          rw [hcs] at htail
          exact .inr ⟨s₁, hs₁, htail⟩

private theorem braceQuote_body {state : BodyState} {body : List Char}
    (h : (pieces state body).isSome = true)
    (hlast : body.getLast? = some '{') (rest : List Char) :
    BraceQuote (if state = .backslash then .escape else .inside)
      (body ++ '"' :: rest) := by
  induction body generalizing state with
  | nil => cases hlast
  | cons c cs ih =>
      cases cs with
      | nil =>
          refine .inl ⟨Option.some.inj hlast, rfl, ?_⟩
          split_ifs
          · exact .inr rfl
          · exact .inl rfl
      | cons c' cs =>
          obtain ⟨state', hcs, hbackslash, hquote⟩ := pieces_cons h
          refine .inr ⟨_, ?_, ih hcs (by simpa using hlast)⟩
          by_cases hstate : state = .backslash
          · have hnext : state' ≠ .backslash := fun h =>
              (hbackslash.1 h).1 hstate
            rw [if_pos hstate, if_neg hnext]
            rfl
          · simp only [hbackslash, hstate, ne_eq, not_false_eq_true,
              true_and, if_false, ScanState.step, if_neg (hquote hstate)]
            rfl

private theorem braceQuote_string {lit : StringLit}
    (hlast : lit.1.getLast? = some '{') {s : ScanState} (hs : s.Ready)
    (rest : List Char) : BraceQuote s (lit.text ++ rest) := by
  have hopen : scan s ['"'] = some .inside := by
    rcases hs with rfl | rfl <;> rfl
  have hbody : BraceQuote .inside (lit.1 ++ '"' :: rest) :=
    braceQuote_body lit.pieces_isSome hlast rest
  simpa [StringLit.text] using BraceQuote.append hopen hbody

/-- A string of a tree that ends in a brace. -/
theorem braceQuote_text {k : Kind} (d : Syn k) {lit : StringLit}
    (hlit : lit ∈ d.literals) (hlast : lit.1.getLast? = some '{')
    {s : ScanState} (hs : s.Ready) (rest : List Char) :
    BraceQuote s (d.text ++ rest) := by
  have hfree : ScanState.free.Ready := .inl rfl
  have hopen {s : ScanState} (hs : s.Ready) {c : Char}
      (hc : c = '[' ∨ c = '{') : scan s [c] = some .free := by
    rcases hs with rfl | rfl <;> rcases hc with rfl | rfl <;> rfl
  induction d generalizing s rest with
  | str lit' =>
      obtain rfl := List.mem_singleton.1 hlit
      exact braceQuote_string hlast hs rest
  | arr elems ih =>
      have hall := BraceQuote.append (hopen hs (.inl rfl))
        (ih hlit hfree rest)
      exact hall
  | obj members ih =>
      have hall := BraceQuote.append (hopen hs (.inr rfl))
        (ih hlit hfree rest)
      exact hall
  | lastElem before w after ih =>
      have hw := ih hlit hs (after.1 ++ ']' :: rest)
      have hall := BraceQuote.append (scan_ws before (.inl hs)) hw
      simpa [Syn.text] using hall
  | elem before w after tail ihw ih =>
      rcases List.mem_append.1 hlit with hlit | hlit
      · have hw := ihw hlit hs (after.1 ++ ',' :: (tail.text ++ rest))
        have hall := BraceQuote.append (scan_ws before (.inl hs)) hw
        simpa [Syn.text] using hall
      · have htail := ih hlit (.inr rfl : ScanState.comma.Ready) rest
        have hall := BraceQuote.append (scan_elem before w after hs) htail
        simpa [Syn.text] using hall
  | lastMember before name colon colon' w after ih =>
      rcases List.mem_cons.1 hlit with rfl | hlit
      · have hname := braceQuote_string hlast hs (colon.1 ++ ':' ::
          (colon'.1 ++ (w.text ++ (after.1 ++ '}' :: rest))))
        have hall := BraceQuote.append (scan_ws before (.inl hs)) hname
        simpa [Syn.text, keyText] using hall
      · have hw := ih hlit hfree (after.1 ++ '}' :: rest)
        have hall := BraceQuote.append
          (scan_key before name colon colon' hs) hw
        simpa [Syn.text] using hall
  | member before name colon colon' w after tail ihw ih =>
      rcases List.mem_cons.1 hlit with rfl | hlit
      · have hname := braceQuote_string hlast hs (colon.1 ++ ':' ::
          (colon'.1 ++ (w.text ++ (after.1 ++ ',' :: (tail.text ++ rest)))))
        have hall := BraceQuote.append (scan_ws before (.inl hs)) hname
        simpa [Syn.text, keyText] using hall
      · rcases List.mem_append.1 hlit with hlit | hlit
        · have hw := ihw hlit hfree (after.1 ++ ',' :: (tail.text ++ rest))
          have hall := BraceQuote.append
            (scan_key before name colon colon' hs) hw
          simpa [Syn.text] using hall
        · have htail := ih hlit (.inr rfl : ScanState.comma.Ready) rest
          have hall := BraceQuote.append
            (scan_member before name colon colon' w after hs) htail
          simpa [Syn.text] using hall
  | _ => cases hlit

section Broken

variable {key : StringLit} {v : Syn .value}

theorem scan_memberText (key : StringLit) (v : Syn .value) :
    scan .free (memberText key v) = some .comma := by
  have htext : memberText key v
      = keyText noWs key noWs noWs ++ v.text ++ noWs.1 ++ [','] := by
    simp [memberText, keyText, noWs]
  rw [htext]
  exact scan_member noWs key noWs noWs v noWs (.inl rfl)

/-- The quote that ends the string is taken for the start of a key, and
what is written before it ends the string. -/
theorem scan_writeFirst (hkey : scan .inside (memberText key v) = none)
    {s : ScanState} {cs : List Char} (hscan : (scan s cs).isSome = true)
    (h : BraceQuote s cs) : scan s (writeFirst key v cs) = none := by
  unfold writeFirst
  induction cs using replacePair.induct '{' '"' generalizing s with
  | case1 => cases h
  | case2 c => cases h
  | case3 c c' cs hpair ih =>
      obtain ⟨rfl, rfl⟩ := hpair
      have htext : replacePair '{' '"' ('{' :: memberText key v ++ ['"'])
            ('{' :: '"' :: cs)
          = '{' :: (memberText key v ++ '"' :: writeFirst key v cs) := by
        rw [replacePair, if_pos ⟨rfl, rfl⟩, writeFirst]
        simp
      -- at the start of an object both texts are inside the key next
      have hobject (hs : s.Ready) : scan s
          ('{' :: (memberText key v ++ '"' :: writeFirst key v cs))
            = none := by
        have hstep : s.step '{' = some .free := by
          rcases hs with rfl | rfl <;> rfl
        have hinside : BraceQuote .inside cs := by
          rcases h with ⟨-, -, hs' | hs'⟩ | ⟨s', hs', h⟩
          · rcases hs with rfl | rfl <;> cases hs'
          · rcases hs with rfl | rfl <;> cases hs'
          · obtain rfl := Option.some.inj (hstep.symm.trans hs')
            exact h.tail
        have hrest : (scan .inside cs).isSome = true := by
          rw [scan, hstep] at hscan
          exact hscan
        rw [scan, hstep, Option.bind_some, scan_append, scan_memberText,
          Option.bind_some]
        exact ih hrest hinside
      have hstring : scan .inside
          (memberText key v ++ '"' :: writeFirst key v cs) = none := by
        rw [scan_append, hkey]
        rfl
      rw [htext]
      cases s with
      | free => exact hobject (.inl rfl)
      | comma => exact hobject (.inr rfl)
      | closed => cases hscan
      | inside => exact hstring
      | escape => exact hstring
  | case4 c c' cs hpair ih =>
      rcases h with ⟨hc, hc', -⟩ | ⟨s', hs', h⟩
      · exact absurd ⟨hc, hc'⟩ hpair
      · rw [scan, hs', Option.bind_some] at hscan
        rw [replacePair, if_neg hpair, scan, hs', Option.bind_some]
        exact ih hscan h

end Broken

-- ========================================================= whole documents

section Document

variable {key : StringLit} {v : Syn .value}

/-- Add a member to every object of a document whose first key follows its
brace directly. -/
def Document.addFirst (key : StringLit) (v : Syn .value) (d : Document) :
    Document :=
  { d with root := Syn.addFirst key v d.root }

theorem writeFirst_ws (ws : Ws) (rest : List Char) :
    writeFirst key v (ws.1 ++ rest) = ws.1 ++ writeFirst key v rest :=
  writeFirst_skip (notMem_ws ws) rest

/-- Where no string ends in a brace, the text is edited as the document
is. -/
theorem Document.chars_addFirst (d : Document)
    (h : ∀ lit ∈ d.root.literals, lit.1.getLast? ≠ some '{') :
    writeFirst key v d.chars = (d.addFirst key v).chars := by
  have hafter : writeFirst key v d.after.1 = d.after.1 := by
    have hskip : writeFirst key v (d.after.1 ++ [])
        = d.after.1 ++ writeFirst key v [] := writeFirst_ws d.after []
    simpa [writeFirst, replacePair] using hskip
  rw [Document.chars, List.append_assoc, writeFirst_ws, text_addFirst _ h,
    hafter, ← List.append_assoc]
  rfl

/-- Where one does, the text is JSON no more. -/
theorem Document.writeFirst_ne (d : Document)
    (hkey : Json.scan .inside (memberText key v) = none)
    {lit : StringLit}
    (hlit : lit ∈ d.root.literals) (hlast : lit.1.getLast? = some '{')
    (d' : Document) : d'.chars ≠ writeFirst key v d.chars := by
  refine not_document (scan_writeFirst hkey d.scan ?_) d'
  have hroot := braceQuote_text d.root hlit hlast
    (.inl rfl : ScanState.free.Ready) d.after.1
  have hall := BraceQuote.append
    (scan_ws d.before (.inl (.inl rfl) : ScanState.free.Ready ∨ _)) hroot
  rwa [Document.chars, List.append_assoc]

end Document

end Wup.Json
