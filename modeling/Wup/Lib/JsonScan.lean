/-
A scanner that turns down some texts that are no JSON.

The scanner goes over a text once and tracks whether it is inside a
string. It stops where something other than punctuation follows a string,
and where a bracket closes right after a comma. Every JSON text passes
(`Document.scan`), so that a text on which the scanner stops is no JSON
(`not_document`).
-/
import Wup.Lib.JsonParser

namespace Wup.Json

/-- Where in a text the scanner stands. -/
inductive ScanState
  /-- Outside strings. -/
  | free
  /-- After a comma. -/
  | comma
  /-- After a string. -/
  | closed
  /-- Inside a string. -/
  | inside
  /-- Inside a string, after a backslash. -/
  | escape
deriving DecidableEq, Repr

namespace ScanState

/-- The next character, of a value or of punctuation. -/
def ofChar (c : Char) : ScanState :=
  if c = '"' then .inside else if c = ',' then .comma else .free

/-- The next character. -/
def step : ScanState → Char → Option ScanState
  | .free, c => some (ofChar c)
  | .comma, c =>
      if isWs c then some .comma
      else if c = ']' || c = '}' then none
      else some (ofChar c)
  | .closed, c =>
      if isWs c then some .closed
      else if c = ',' || c = ':' || c = ']' || c = '}' then some (ofChar c)
      else none
  | .inside, c =>
      some (if c = '"' then .closed else if c = '\\' then .escape
        else .inside)
  | .escape, _ => some .inside

/-- A value may start here. -/
def Ready (s : ScanState) : Prop := s = .free ∨ s = .comma

/-- A value may end here. -/
def Done (s : ScanState) : Prop := s = .free ∨ s = .closed

end ScanState

/-- Go over a text. -/
def scan : ScanState → List Char → Option ScanState
  | s, [] => some s
  | s, c :: cs => (s.step c).bind fun s => scan s cs

theorem scan_append (s : ScanState) (cs cs' : List Char) :
    scan s (cs ++ cs') = (scan s cs).bind fun s => scan s cs' := by
  induction cs generalizing s with
  | nil => rfl
  | cons c cs ih =>
      rw [List.cons_append, scan, scan]
      cases s.step c with
      | none => rfl
      | some s' => exact ih s'

-- ================================================================== tokens

private theorem isWs_ofChar {c : Char} (h : isWs c = true) :
    ScanState.ofChar c = .free := by
  simp only [isWs, Bool.or_eq_true, decide_eq_true_eq] at h
  rcases h with ((rfl | rfl) | rfl) | rfl <;> rfl

theorem scan_ws (ws : Ws) {s : ScanState} (h : s.Ready ∨ s.Done) :
    scan s ws.1 = some s := by
  obtain ⟨cs, hcs⟩ := ws
  induction cs with
  | nil => rfl
  | cons c cs ih =>
      obtain ⟨hc, hcs⟩ : isWs c = true ∧ cs.all isWs = true := by
        simpa using hcs
      have hstep : s.step c = some s := by
        rcases h with (rfl | rfl) | (rfl | rfl)
        · exact congrArg some (isWs_ofChar hc)
        · exact if_pos hc
        · exact congrArg some (isWs_ofChar hc)
        · exact if_pos hc
      rw [scan, hstep]
      exact ih hcs

/-- Neither a quote nor a comma. -/
theorem scan_plain {cs : List Char}
    (h : ∀ c ∈ cs, ScanState.ofChar c = .free) :
    scan .free cs = some .free := by
  induction cs with
  | nil => rfl
  | cons c cs ih =>
      rw [scan, ScanState.step, h c (.head _)]
      exact ih fun c hc => h c (.tail _ hc)

private theorem isNumberChar_ofChar {c : Char} (h : isNumberChar c = true) :
    ScanState.ofChar c = .free := by
  have hq : c ≠ '"' := by
    rintro rfl
    cases h
  have hcomma : c ≠ ',' := by
    rintro rfl
    cases h
  simp [ScanState.ofChar, hq, hcomma]

theorem scan_number (lit : NumberLit) : scan .free lit.1 = some .free :=
  scan_plain fun c hc =>
    isNumberChar_ofChar (List.all_eq_true.1 lit.all_isNumberChar c hc)

private theorem scan_pieces {state : BodyState} {body : List Char}
    (h : (pieces state body).isSome = true) :
    scan (if state = .backslash then .escape else .inside) body
      = some .inside := by
  induction body generalizing state with
  | nil =>
      rw [pieces_nil h]
      rfl
  | cons c cs ih =>
      obtain ⟨state', hcs, hbackslash, hquote⟩ := pieces_cons h
      have htail := ih hcs
      by_cases hstate : state = .backslash
      · have hnext : state' ≠ .backslash := fun h =>
          (hbackslash.1 h).1 hstate
        rw [if_neg hnext] at htail
        rw [if_pos hstate]
        exact htail
      · simp only [hbackslash, hstate, ne_eq, not_false_eq_true,
          true_and] at htail
        rw [if_neg hstate, scan, ScanState.step, if_neg (hquote hstate)]
        exact htail

theorem scan_string (lit : StringLit) {s : ScanState} (h : s.Ready) :
    scan s lit.text = some .closed := by
  have hbody : scan .inside lit.1 = some .inside :=
    scan_pieces lit.pieces_isSome
  have hquote : s.step '"' = some .inside := by
    rcases h with rfl | rfl <;> rfl
  rw [StringLit.text, scan_append, scan, hquote, Option.bind_some, hbody]
  rfl

-- =================================================================== trees

theorem scan_key (before : Ws) (key : StringLit) (colon colon' : Ws)
    {s : ScanState} (h : s.Ready) :
    scan s (keyText before key colon colon') = some .free := by
  have hcolon : scan .closed colon.1 = some .closed :=
    scan_ws colon (.inr (.inr rfl))
  have hcolon' : scan .free colon'.1 = some .free :=
    scan_ws colon' (.inl (.inl rfl))
  rw [keyText, scan_append, scan_append, scan_append,
    scan_ws before (.inl h), Option.bind_some, scan_string key h,
    Option.bind_some, hcolon]
  exact hcolon'

/-- A value is no closing bracket. -/
theorem scan_ready (d : Syn .value) {s : ScanState} (h : s.Ready) :
    scan s d.text = scan .free d.text := by
  rcases h with rfl | rfl
  · rfl
  · obtain ⟨c, cs, heq, hws, ha, ho⟩ := d.head
    simp [heq, scan, ScanState.step, hws, ha, ho]

/-- After a value there may be whitespace, and then a comma or a closing
bracket. -/
theorem scan_after {s : ScanState} (h : s.Done) (after : Ws) {c : Char}
    (hc : c = ',' ∨ c = ']' ∨ c = '}') (rest : List Char) :
    scan s (after.1 ++ c :: rest) = scan (.ofChar c) rest := by
  rw [scan_append, scan_ws after (.inr h), Option.bind_some, scan]
  rcases h with rfl | rfl <;> rcases hc with rfl | rfl | rfl <;> rfl

/-- Every tree passes. -/
theorem Syn.scan {k : Kind} (d : Syn k) {s : ScanState} (h : s.Ready) :
    ∃ s', s'.Done ∧ scan s d.text = some s' := by
  have hfree : ScanState.free.Ready := .inl rfl
  induction d generalizing s with
  | null => exact ⟨.free, .inl rfl, by rw [scan_ready .null h]; rfl⟩
  | bool b =>
      refine ⟨.free, .inl rfl, ?_⟩
      rw [scan_ready (.bool b) h]
      cases b <;> rfl
  | num lit =>
      refine ⟨.free, .inl rfl, ?_⟩
      rw [scan_ready (.num lit) h]
      exact scan_number lit
  | str lit => exact ⟨.closed, .inr rfl, scan_string lit h⟩
  | emptyArr ws =>
      refine ⟨.free, .inl rfl, ?_⟩
      rw [scan_ready (.emptyArr ws) h]
      exact scan_after (.inl rfl) ws (.inr (.inl rfl)) []
  | arr elems ih =>
      obtain ⟨s', hs', hscan⟩ := ih hfree
      refine ⟨s', hs', ?_⟩
      rw [scan_ready (.arr elems) h]
      exact hscan
  | emptyObj ws =>
      refine ⟨.free, .inl rfl, ?_⟩
      rw [scan_ready (.emptyObj ws) h]
      exact scan_after (.inl rfl) ws (.inr (.inr rfl)) []
  | obj members ih =>
      obtain ⟨s', hs', hscan⟩ := ih hfree
      refine ⟨s', hs', ?_⟩
      rw [scan_ready (.obj members) h]
      exact hscan
  | lastElem before v after ih =>
      obtain ⟨s', hs', hscan⟩ := ih h
      refine ⟨.free, .inl rfl, ?_⟩
      rw [Syn.text, List.append_assoc, List.append_assoc, scan_append,
        scan_ws before (.inl h), Option.bind_some, scan_append, hscan]
      exact scan_after hs' after (.inr (.inl rfl)) []
  | elem before v after tail ihv ih =>
      obtain ⟨s', hs', hscan⟩ := ihv h
      obtain ⟨s'', hs'', htail⟩ := ih (.inr rfl : ScanState.comma.Ready)
      refine ⟨s'', hs'', ?_⟩
      rw [Syn.text, List.append_assoc, List.append_assoc, scan_append,
        scan_ws before (.inl h), Option.bind_some, scan_append, hscan,
        Option.bind_some, scan_after hs' after (.inl rfl)]
      exact htail
  | lastMember before key colon colon' v after ih =>
      obtain ⟨s', hs', hscan⟩ := ih hfree
      refine ⟨.free, .inl rfl, ?_⟩
      rw [Syn.text, List.append_assoc, List.append_assoc, scan_append,
        scan_key before key colon colon' h, Option.bind_some, scan_append,
        hscan]
      exact scan_after hs' after (.inr (.inr rfl)) []
  | member before key colon colon' v after tail ihv ih =>
      obtain ⟨s', hs', hscan⟩ := ihv hfree
      obtain ⟨s'', hs'', htail⟩ := ih (.inr rfl : ScanState.comma.Ready)
      refine ⟨s'', hs'', ?_⟩
      rw [Syn.text, List.append_assoc, List.append_assoc, scan_append,
        scan_key before key colon colon' h, Option.bind_some, scan_append,
        hscan, Option.bind_some, scan_after hs' after (.inl rfl)]
      exact htail

/-- An element and the comma after it. -/
theorem scan_elem (before : Ws) (v : Syn .value) (after : Ws)
    {s : ScanState} (h : s.Ready) :
    scan s (before.1 ++ v.text ++ after.1 ++ [',']) = some .comma := by
  obtain ⟨s', hs', hscan⟩ := v.scan h
  rw [List.append_assoc, List.append_assoc, scan_append,
    scan_ws before (.inl h), Option.bind_some, scan_append, hscan]
  exact scan_after hs' after (.inl rfl) []

/-- A member and the comma after it. -/
theorem scan_member (before : Ws) (key : StringLit) (colon colon' : Ws)
    (v : Syn .value) (after : Ws) {s : ScanState} (h : s.Ready) :
    scan s (keyText before key colon colon' ++ v.text ++ after.1 ++ [','])
      = some .comma := by
  obtain ⟨s', hs', hscan⟩ := v.scan (.inl rfl : ScanState.free.Ready)
  rw [List.append_assoc, List.append_assoc, scan_append,
    scan_key before key colon colon' h, Option.bind_some, scan_append, hscan]
  exact scan_after hs' after (.inl rfl) []

/-- Every JSON text passes. -/
theorem Document.scan (d : Document) :
    (scan .free d.chars).isSome = true := by
  obtain ⟨s', hs', hroot⟩ := d.root.scan (.inl rfl : ScanState.free.Ready)
  rw [Document.chars, List.append_assoc, scan_append,
    scan_ws d.before (.inl (.inl rfl)), Option.bind_some, scan_append, hroot,
    Option.bind_some, scan_ws d.after (.inr hs')]
  rfl

/-- A text on which the scanner stops is no JSON. -/
theorem not_document {cs : List Char} (h : Json.scan .free cs = none)
    (d : Document) : d.chars ≠ cs := by
  rintro rfl
  have hscan := d.scan
  rw [h] at hscan
  cases hscan

end Wup.Json
