/-
A JSON parser, and that it is exact.

The parser reads a text into its syntax tree. It takes the longest run of
whitespace, of number characters and of string characters where one is
due; the rest is decided by the next character. `parse_sound`: what it
reads is what the tree spells. `parse_text`: it reads every tree back, so
that a text has one tree at most.

The fuel bounds the depth of the recursion; the length of the text is
enough.
-/
import Wup.Lib.Json

namespace Wup.Json

-- ================================================================== tokens

/-- Take the leading whitespace. -/
def takeWs (cs : List Char) : Ws × List Char :=
  (⟨cs.takeWhile isWs, List.all_eq_true.2 fun _ h =>
      (List.mem_takeWhile_imp h)⟩, cs.dropWhile isWs)

/-- Take the rest of a fixed word. -/
def takeWord (word cs : List Char) : Option (List Char) :=
  if word.isPrefixOf cs then some (cs.drop word.length) else none

/-- Split a text at the quote that ends the string. -/
def splitQuote (escaped : Bool) : List Char → Option (List Char × List Char)
  | [] => none
  | c :: cs =>
      if escaped then
        (splitQuote false cs).map fun r => (c :: r.1, r.2)
      else if c = '"' then some ([], cs)
      else (splitQuote (c = '\\') cs).map fun r => (c :: r.1, r.2)

/-- Take a string whose opening quote is taken. -/
def takeString (cs : List Char) : Option (StringLit × List Char) :=
  (splitQuote false cs).bind fun r =>
    if h : (unescape r.1).isSome = true then some (⟨r.1, h⟩, r.2) else none

/-- Take a number. -/
def takeNumber (cs : List Char) : Option (NumberLit × List Char) :=
  if h : isNumber (cs.takeWhile isNumberChar) = true then
    some (⟨cs.takeWhile isNumberChar, h⟩, cs.dropWhile isNumberChar)
  else none

/-- Take a key, its colon and the whitespace around them. -/
def takeKey (cs : List Char) :
    Option ((Ws × StringLit × Ws × Ws) × List Char) :=
  match takeWs cs with
  | (before, '"' :: cs) =>
      (takeString cs).bind fun (key, cs) =>
        match takeWs cs with
        | (colon, ':' :: cs) =>
            let (colon', cs) := takeWs cs
            some ((before, key, colon, colon'), cs)
        | _ => none
  | _ => none

/-- The next character, if any, is not of this kind. -/
def Stops (p : Char → Bool) (rest : List Char) : Prop :=
  ∀ c ∈ rest.head?, p c = false

theorem stops_cons {p : Char → Bool} {c : Char} {cs : List Char}
    (h : p c = false) : Stops p (c :: cs) := by
  intro c' hc'
  rwa [← Option.some.inj hc']

theorem stops_nil (p : Char → Bool) : Stops p [] := by
  intro c hc
  cases hc

private theorem span_append {p : Char → Bool} {cs rest : List Char}
    (hcs : cs.all p = true) (hrest : Stops p rest) :
    (cs ++ rest).takeWhile p = cs ∧ (cs ++ rest).dropWhile p = rest := by
  have hall := List.all_eq_true.1 hcs
  rw [List.takeWhile_append_of_pos hall, List.dropWhile_append_of_pos hall]
  cases rest with
  | nil => simp
  | cons c rest => simp [hrest c rfl]

theorem takeWs_eq (cs : List Char) :
    (takeWs cs).1.1 ++ (takeWs cs).2 = cs :=
  List.takeWhile_append_dropWhile ..

theorem takeWs_append (ws : Ws) {rest : List Char}
    (h : Stops isWs rest) : takeWs (ws.1 ++ rest) = (ws, rest) := by
  obtain ⟨htake, hdrop⟩ := span_append ws.2 h
  exact Prod.ext (Subtype.ext htake) hdrop

theorem takeWord_eq_some_iff {word cs rest : List Char} :
    takeWord word cs = some rest ↔ cs = word ++ rest := by
  unfold takeWord
  refine ⟨fun h => ?_, fun h => ?_⟩
  · obtain ⟨hpre, hrest⟩ := Option.ite_none_right_eq_some.1 h
    obtain ⟨tail, rfl⟩ := List.isPrefixOf_iff_prefix.1 hpre
    rw [List.drop_left] at hrest
    rw [Option.some.inj hrest]
  · subst h
    rw [if_pos (List.isPrefixOf_iff_prefix.2 (List.prefix_append ..)),
      List.drop_left]

theorem splitQuote_sound {cs body rest : List Char} {escaped : Bool}
    (h : splitQuote escaped cs = some (body, rest)) :
    cs = body ++ '"' :: rest := by
  induction cs generalizing escaped body with
  | nil => cases h
  | cons c cs ih =>
      unfold splitQuote at h
      split at h
      · obtain ⟨r, hr, he⟩ := Option.map_eq_some_iff.1 h
        cases he
        rw [ih hr]
        rfl
      · split at h
        · next hc =>
            cases Option.some.inj h
            rw [hc]
            rfl
        · obtain ⟨r, hr, he⟩ := Option.map_eq_some_iff.1 h
          cases he
          rw [ih hr]
          rfl

private theorem hexDigit_plain {c : Char} (h : (hexDigit c).isSome = true) :
    c ≠ '"' ∧ c ≠ '\\' := by
  refine ⟨?_, ?_⟩
  · rintro rfl
    cases h
  · rintro rfl
    cases h

/-- One step through a body: a quote is escaped, and a backslash that is
not escapes. -/
theorem pieces_cons {state : BodyState} {c : Char} {cs : List Char}
    (h : (pieces state (c :: cs)).isSome = true) :
    ∃ state', (pieces state' cs).isSome = true
      ∧ (state' = .backslash ↔ state ≠ .backslash ∧ c = '\\')
      ∧ (state ≠ .backslash → c ≠ '"') := by
  obtain ⟨ps, hps⟩ := Option.isSome_iff_exists.1 h
  cases state with
  | between =>
      unfold pieces at hps
      split_ifs at hps with hc hplain
      · exact ⟨.backslash, by rw [hps]; rfl, by simp [hc], by simp [hc]⟩
      · obtain ⟨ps', hps', -⟩ := Option.map_eq_some_iff.1 hps
        refine ⟨.between, by rw [hps']; rfl, by simp [hc], fun _ => ?_⟩
        rintro rfl
        cases hplain
  | backslash =>
      unfold pieces at hps
      split_ifs at hps with hc
      · exact ⟨.hex 0 0, by rw [hps]; rfl, by simp, by simp⟩
      · obtain ⟨e, -, hcs⟩ := Option.bind_eq_some_iff.1 hps
        obtain ⟨ps', hps', -⟩ := Option.map_eq_some_iff.1 hcs
        exact ⟨.between, by rw [hps']; rfl, by simp, by simp⟩
  | hex digits n =>
      unfold pieces at hps
      obtain ⟨d, hd, hcs⟩ := Option.bind_eq_some_iff.1 hps
      obtain ⟨hq, hb⟩ := hexDigit_plain (by rw [hd]; rfl)
      split_ifs at hcs
      · obtain ⟨ps', hps', -⟩ := Option.map_eq_some_iff.1 hcs
        exact ⟨.between, by rw [hps']; rfl, by simp [hb], fun _ => hq⟩
      · exact ⟨_, by rw [hcs]; rfl, by simp [hb], fun _ => hq⟩

theorem pieces_nil {state : BodyState}
    (h : (pieces state []).isSome = true) : state = .between := by
  cases state with
  | between => rfl
  | backslash => cases h
  | hex digits n => cases h

/-- No quote ends a body before its end. -/
theorem splitQuote_body {state : BodyState} {body : List Char}
    (h : (pieces state body).isSome = true) (rest : List Char) :
    splitQuote (state = .backslash) (body ++ '"' :: rest)
      = some (body, rest) := by
  induction body generalizing state with
  | nil =>
      rw [pieces_nil h]
      rfl
  | cons c cs ih =>
      obtain ⟨state', hcs, hbackslash, hquote⟩ := pieces_cons h
      have htail := ih hcs
      rw [List.cons_append]
      unfold splitQuote
      by_cases hstate : state = .backslash
      · have hnext : state' ≠ .backslash := fun h =>
          (hbackslash.1 h).1 hstate
        rw [decide_eq_false hnext] at htail
        simp [hstate, htail]
      · have hnext : (state' = .backslash) = (c = '\\') :=
          propext (hbackslash.trans (and_iff_right hstate))
        simp only [hnext] at htail
        simp [hstate, hquote hstate, htail]

theorem StringLit.pieces_isSome (lit : StringLit) :
    (pieces .between lit.1).isSome = true := by
  have h := lit.2
  unfold unescape at h
  rw [Option.isSome_map] at h
  cases hp : pieces .between lit.1 with
  | none =>
      rw [hp] at h
      cases h
  | some ps => rfl

theorem takeString_sound {cs rest : List Char} {lit : StringLit}
    (h : takeString cs = some (lit, rest)) : cs = lit.1 ++ '"' :: rest := by
  obtain ⟨r, hr, hlit⟩ := Option.bind_eq_some_iff.1 h
  split at hlit
  · cases Option.some.inj hlit
    exact splitQuote_sound hr
  · cases hlit

theorem takeString_append (lit : StringLit) (rest : List Char) :
    takeString (lit.1 ++ '"' :: rest) = some (lit, rest) := by
  have hsplit := splitQuote_body lit.pieces_isSome rest
  unfold takeString
  simp only [reduceCtorEq, decide_false] at hsplit
  rw [hsplit, Option.bind_some, dif_pos lit.2]

private theorem isNumberChar_of_step {state state' : NumberState} {c : Char}
    (h : state.step c = some state') : isNumberChar c = true := by
  have hzero : c = '0' → c.isDigit = true := by rintro rfl; rfl
  unfold isNumberChar
  cases state <;> simp only [NumberState.step] at h <;> grind

private theorem all_isNumberChar {state : NumberState} {cs : List Char}
    (h : (cs.foldlM NumberState.step state).isSome = true) :
    cs.all isNumberChar = true := by
  induction cs generalizing state with
  | nil => rfl
  | cons c cs ih =>
      rw [List.foldlM_cons] at h
      obtain ⟨last, hlast⟩ := Option.isSome_iff_exists.1 h
      obtain ⟨next, hnext, hcs⟩ := Option.bind_eq_some_iff.1 hlast
      rw [List.all_cons, isNumberChar_of_step hnext, Bool.true_and]
      exact ih (by rw [hcs]; rfl)

theorem NumberLit.all_isNumberChar (lit : NumberLit) :
    lit.1.all isNumberChar = true := by
  have h := lit.2
  unfold isNumber at h
  cases hs : lit.1.foldlM NumberState.step .start with
  | none =>
      rw [hs] at h
      cases h
  | some state => exact Json.all_isNumberChar (by rw [hs]; rfl)

/-- A number starts with a sign or a digit. -/
theorem NumberLit.head (lit : NumberLit) :
    ∃ c cs, lit.1 = c :: cs ∧ (c = '-' ∨ c.isDigit = true) := by
  obtain ⟨cs, hcs⟩ := lit
  cases cs with
  | nil => cases hcs
  | cons c cs =>
      refine ⟨c, cs, rfl, ?_⟩
      unfold isNumber at hcs
      rw [List.foldlM_cons] at hcs
      cases hc : NumberState.start.step c with
      | none =>
          rw [hc] at hcs
          cases hcs
      | some state =>
          have hzero : c = '0' → c.isDigit = true := by rintro rfl; rfl
          unfold NumberState.step at hc
          grind

theorem takeNumber_sound {cs rest : List Char} {lit : NumberLit}
    (h : takeNumber cs = some (lit, rest)) : cs = lit.1 ++ rest := by
  unfold takeNumber at h
  split at h
  · cases Option.some.inj h
    exact (List.takeWhile_append_dropWhile ..).symm
  · cases h

theorem takeNumber_append (lit : NumberLit) {rest : List Char}
    (h : Stops isNumberChar rest) :
    takeNumber (lit.1 ++ rest) = some (lit, rest) := by
  obtain ⟨htake, hdrop⟩ := span_append lit.all_isNumberChar h
  unfold takeNumber
  simp only [htake, hdrop, lit.2, dif_pos]

private theorem takeWs_sound {cs rest : List Char} {ws : Ws}
    (h : takeWs cs = (ws, rest)) : cs = ws.1 ++ rest := by
  have heq := takeWs_eq cs
  rw [h] at heq
  exact heq.symm

theorem takeKey_sound {cs rest : List Char} {before colon colon' : Ws}
    {key : StringLit}
    (h : takeKey cs = some ((before, key, colon, colon'), rest)) :
    cs = keyText before key colon colon' ++ rest := by
  unfold takeKey at h
  split at h
  · next before cs₁ hbefore =>
      obtain ⟨⟨key, cs₂⟩, hkey, h⟩ := Option.bind_eq_some_iff.1 h
      simp only at h
      split at h
      · next colon cs₃ hcolon =>
          generalize hcolon' : takeWs cs₃ = r at h
          obtain ⟨colon', cs₄⟩ := r
          cases Option.some.inj h
          rw [takeWs_sound hbefore, takeString_sound hkey,
            takeWs_sound hcolon, takeWs_sound hcolon']
          simp [keyText, StringLit.text]
      · cases h
  · cases h

theorem takeKey_append (before : Ws) (key : StringLit) (colon colon' : Ws)
    {rest : List Char} (h : Stops isWs rest) :
    takeKey (keyText before key colon colon' ++ rest)
      = some ((before, key, colon, colon'), rest) := by
  have hbefore (tail : List Char) :
      takeWs (before.1 ++ '"' :: tail) = (before, '"' :: tail) :=
    takeWs_append before (stops_cons rfl)
  have hkey := takeString_append key (colon.1 ++ ':' :: (colon'.1 ++ rest))
  have hcolon (tail : List Char) :
      takeWs (colon.1 ++ ':' :: tail) = (colon, ':' :: tail) :=
    takeWs_append colon (stops_cons rfl)
  have hcolon' := takeWs_append colon' h
  simp [takeKey, keyText, StringLit.text, hbefore, hkey, hcolon, hcolon']

-- ================================================================== parser

/-- Read a tree off the front of a text. -/
def parse : (k : Kind) → Nat → List Char → Option (Syn k × List Char)
  | _, 0, _ => none
  | .value, fuel + 1, cs =>
      match cs with
      | [] => none
      | c :: rest =>
          if c = 'n' then
            (takeWord ['u', 'l', 'l'] rest).map fun rest => (.null, rest)
          else if c = 't' then
            (takeWord ['r', 'u', 'e'] rest).map fun rest =>
              (.bool true, rest)
          else if c = 'f' then
            (takeWord ['a', 'l', 's', 'e'] rest).map fun rest =>
              (.bool false, rest)
          else if c = '"' then
            (takeString rest).map fun r => (.str r.1, r.2)
          else if c = '[' then
            match takeWs rest with
            | (ws, ']' :: rest') => some (.emptyArr ws, rest')
            | _ => (parse .elems fuel rest).map fun r => (.arr r.1, r.2)
          else if c = '{' then
            match takeWs rest with
            | (ws, '}' :: rest') => some (.emptyObj ws, rest')
            | _ => (parse .members fuel rest).map fun r => (.obj r.1, r.2)
          else (takeNumber (c :: rest)).map fun r => (.num r.1, r.2)
  | .elems, fuel + 1, cs =>
      let (before, cs) := takeWs cs
      (parse .value fuel cs).bind fun (v, cs) =>
        match takeWs cs with
        | (after, ']' :: cs) => some (.lastElem before v after, cs)
        | (after, ',' :: cs) =>
            (parse .elems fuel cs).map fun r =>
              (.elem before v after r.1, r.2)
        | _ => none
  | .members, fuel + 1, cs =>
      (takeKey cs).bind fun ((before, key, colon, colon'), cs) =>
        (parse .value fuel cs).bind fun (v, cs) =>
          match takeWs cs with
          | (after, '}' :: cs) =>
              some (.lastMember before key colon colon' v after, cs)
          | (after, ',' :: cs) =>
              (parse .members fuel cs).map fun r =>
                (.member before key colon colon' v after r.1, r.2)
          | _ => none

/-- Read a whole text. -/
def parseDocument (cs : List Char) : Option Document :=
  let (before, rest) := takeWs cs
  (parse .value (cs.length + 1) rest).bind fun (root, rest) =>
    match takeWs rest with
    | (after, []) => some ⟨before, root, after⟩
    | _ => none

-- =============================================================== soundness

/-- What the parser reads is what the tree spells. -/
theorem parse_sound {k : Kind} {fuel : Nat} {cs rest : List Char}
    {d : Syn k} (h : parse k fuel cs = some (d, rest)) :
    cs = d.text ++ rest := by
  induction fuel generalizing k cs rest with
  | zero => cases k <;> cases h
  | succ fuel ih =>
      cases k with
      | value =>
          unfold parse at h
          cases cs with
          | nil => cases h
          | cons c cs =>
              simp only at h
              split_ifs at h with hn ht hf hq ha ho
              · obtain ⟨r, hr, he⟩ := Option.map_eq_some_iff.1 h
                cases he
                rw [takeWord_eq_some_iff.1 hr, hn]
                rfl
              · obtain ⟨r, hr, he⟩ := Option.map_eq_some_iff.1 h
                cases he
                rw [takeWord_eq_some_iff.1 hr, ht]
                rfl
              · obtain ⟨r, hr, he⟩ := Option.map_eq_some_iff.1 h
                cases he
                rw [takeWord_eq_some_iff.1 hr, hf]
                rfl
              · obtain ⟨⟨lit, r⟩, hr, he⟩ := Option.map_eq_some_iff.1 h
                cases he
                rw [takeString_sound hr, hq]
                simp [Syn.text, StringLit.text]
              · split at h
                · next ws r hws =>
                    cases Option.some.inj h
                    rw [takeWs_sound hws, ha]
                    simp [Syn.text]
                · obtain ⟨⟨elems, r⟩, hr, he⟩ :=
                    Option.map_eq_some_iff.1 h
                  cases he
                  rw [ih hr, ha]
                  rfl
              · split at h
                · next ws r hws =>
                    cases Option.some.inj h
                    rw [takeWs_sound hws, ho]
                    simp [Syn.text]
                · obtain ⟨⟨members, r⟩, hr, he⟩ :=
                    Option.map_eq_some_iff.1 h
                  cases he
                  rw [ih hr, ho]
                  rfl
              · obtain ⟨⟨lit, r⟩, hr, he⟩ := Option.map_eq_some_iff.1 h
                cases he
                exact takeNumber_sound hr
      | elems =>
          unfold parse at h
          generalize hbefore : takeWs cs = r₁ at h
          obtain ⟨before, cs₁⟩ := r₁
          obtain ⟨⟨v, cs₂⟩, hv, h⟩ := Option.bind_eq_some_iff.1 h
          have hcs : cs = before.1 ++ (v.text ++ cs₂) := by
            rw [takeWs_sound hbefore, ih hv]
          simp only at h
          split at h
          · next after cs₃ hafter =>
              cases Option.some.inj h
              rw [hcs, takeWs_sound hafter]
              simp [Syn.text]
          · next after cs₃ hafter =>
              obtain ⟨⟨tail, r⟩, hr, he⟩ := Option.map_eq_some_iff.1 h
              cases he
              rw [hcs, takeWs_sound hafter, ih hr]
              simp [Syn.text]
          · cases h
      | members =>
          unfold parse at h
          obtain ⟨⟨⟨before, key, colon, colon'⟩, cs₁⟩, hkey, h⟩ :=
            Option.bind_eq_some_iff.1 h
          obtain ⟨⟨v, cs₂⟩, hv, h⟩ := Option.bind_eq_some_iff.1 h
          have hcs : cs = keyText before key colon colon'
              ++ (v.text ++ cs₂) := by
            rw [takeKey_sound hkey, ih hv]
          simp only at h
          split at h
          · next after cs₃ hafter =>
              cases Option.some.inj h
              rw [hcs, takeWs_sound hafter]
              simp [Syn.text]
          · next after cs₃ hafter =>
              obtain ⟨⟨tail, r⟩, hr, he⟩ := Option.map_eq_some_iff.1 h
              cases he
              rw [hcs, takeWs_sound hafter, ih hr]
              simp [Syn.text]
          · cases h

theorem parseDocument_sound {cs : List Char} {d : Document}
    (h : parseDocument cs = some d) : cs = d.chars := by
  unfold parseDocument at h
  generalize hbefore : takeWs cs = r₁ at h
  obtain ⟨before, cs₁⟩ := r₁
  obtain ⟨⟨root, cs₂⟩, hroot, h⟩ := Option.bind_eq_some_iff.1 h
  simp only at h
  split at h
  · next after hafter =>
      cases Option.some.inj h
      rw [takeWs_sound hbefore, parse_sound hroot, takeWs_sound hafter]
      simp [Document.chars]
  · cases h

-- ============================================================ completeness

/-- A value starts with neither whitespace nor a closing bracket. -/
theorem Syn.head (d : Syn .value) :
    ∃ c cs, d.text = c :: cs ∧ isWs c = false ∧ c ≠ ']' ∧ c ≠ '}' := by
  cases d with
  | null => exact ⟨_, _, rfl, by decide⟩
  | bool b => cases b <;> exact ⟨_, _, rfl, by decide⟩
  | num lit =>
      obtain ⟨c, cs, heq, hc⟩ := lit.head
      have hws : isWs c = true → c.isDigit = false ∧ c ≠ '-' := by
        intro h
        simp only [isWs, Bool.or_eq_true, decide_eq_true_eq] at h
        rcases h with ((rfl | rfl) | rfl) | rfl <;> decide
      refine ⟨c, cs, heq, by grind, ?_, ?_⟩
      · rintro rfl
        revert hc
        decide
      · rintro rfl
        revert hc
        decide
  | str lit => exact ⟨_, _, rfl, by decide⟩
  | emptyArr ws => exact ⟨_, _, rfl, by decide⟩
  | arr elems => exact ⟨_, _, rfl, by decide⟩
  | emptyObj ws => exact ⟨_, _, rfl, by decide⟩
  | obj members => exact ⟨_, _, rfl, by decide⟩

private theorem Syn.stops (d : Syn .value) (rest : List Char) :
    Stops isWs (d.text ++ rest) := by
  obtain ⟨c, cs, heq, hc, -⟩ := d.head
  rw [heq]
  exact stops_cons hc

private theorem stops_ws (ws : Ws) {rest : List Char}
    (h : Stops isNumberChar rest) : Stops isNumberChar (ws.1 ++ rest) := by
  obtain ⟨cs, hcs⟩ := ws
  cases cs with
  | nil => exact h
  | cons c cs =>
      have hc : isWs c = true := List.all_eq_true.1 hcs c (.head _)
      refine stops_cons ?_
      simp only [isWs, Bool.or_eq_true, decide_eq_true_eq] at hc
      rcases hc with ((rfl | rfl) | rfl) | rfl <;> decide

/-- After an opening bracket a list of elements shows no closing one. -/
private theorem takeWs_elems (d : Syn .elems) (rest : List Char) :
    ∃ ws c cs, takeWs (d.text ++ rest) = (ws, c :: cs) ∧ c ≠ ']' := by
  have main : ∀ (before : Ws) (v : Syn .value) (tail : List Char),
      ∃ ws c cs, takeWs (before.1 ++ (v.text ++ tail)) = (ws, c :: cs)
        ∧ c ≠ ']' := by
    intro before v tail
    obtain ⟨c, cs, heq, -, hc, -⟩ := v.head
    refine ⟨before, c, cs ++ tail, ?_, hc⟩
    rw [takeWs_append before (v.stops tail), heq]
    rfl
  cases d with
  | lastElem before v after =>
      simpa [Syn.text] using main before v _
  | elem before v after tail =>
      simpa [Syn.text] using main before v _

private theorem takeWs_members (d : Syn .members) (rest : List Char) :
    ∃ ws cs, takeWs (d.text ++ rest) = (ws, '"' :: cs) := by
  have main : ∀ (before : Ws) (tail : List Char),
      ∃ ws cs, takeWs (before.1 ++ '"' :: tail) = (ws, '"' :: cs) :=
    fun before tail => ⟨before, tail, takeWs_append before (stops_cons rfl)⟩
  cases d with
  | lastMember before key colon colon' v after =>
      simpa [Syn.text, keyText, StringLit.text] using main before _
  | member before key colon colon' v after tail =>
      simpa [Syn.text, keyText, StringLit.text] using main before _

private theorem Syn.text_pos {k : Kind} (d : Syn k) :
    0 < d.text.length := by
  cases d with
  | num lit =>
      obtain ⟨c, cs, heq, -⟩ := lit.head
      rw [Syn.text, heq]
      exact Nat.succ_pos _
  | bool b => cases b <;> decide
  | _ => simp [Syn.text, StringLit.text, keyText]

/-- The parser reads every tree back. -/
theorem parse_text {k : Kind} (d : Syn k) {fuel : Nat} {rest : List Char}
    (hfuel : d.text.length ≤ fuel)
    (hrest : k = .value → Stops isNumberChar rest) :
    parse k fuel (d.text ++ rest) = some (d, rest) := by
  induction fuel generalizing k rest with
  | zero => exact absurd hfuel (Nat.not_le.2 d.text_pos)
  | succ fuel ih =>
      cases d with
      | null => simp [Syn.text, parse, takeWord]
      | bool b => cases b <;> simp [Syn.text, parse, takeWord]
      | num lit =>
          obtain ⟨c, cs, heq, hc⟩ := lit.head
          have htake := takeNumber_append lit (hrest rfl)
          have hne : c ≠ 'n' ∧ c ≠ 't' ∧ c ≠ 'f' ∧ c ≠ '"' ∧ c ≠ '['
              ∧ c ≠ '{' := by
            refine ⟨?_, ?_, ?_, ?_, ?_, ?_⟩ <;>
              (rintro rfl; revert hc; decide)
          obtain ⟨hn, ht, hf, hq, ha, ho⟩ := hne
          rw [heq, List.cons_append] at htake
          rw [Syn.text, heq, List.cons_append, parse]
          simp [hn, ht, hf, hq, ha, ho, htake]
      | str lit =>
          have htake := takeString_append lit rest
          simp [Syn.text, StringLit.text, parse, htake]
      | emptyArr ws =>
          have htake : takeWs (ws.1 ++ ']' :: rest) = (ws, ']' :: rest) :=
            takeWs_append ws (stops_cons rfl)
          simp [Syn.text, parse, htake]
      | arr elems =>
          obtain ⟨ws, c, cs, hws, hc⟩ := takeWs_elems elems rest
          have hlen : elems.text.length ≤ fuel := by
            simpa [Syn.text] using hfuel
          have helems : parse .elems fuel (elems.text ++ rest)
              = some (elems, rest) := ih elems hlen (fun h => by cases h)
          simp [Syn.text, parse, hws, hc, helems]
      | emptyObj ws =>
          have htake : takeWs (ws.1 ++ '}' :: rest) = (ws, '}' :: rest) :=
            takeWs_append ws (stops_cons rfl)
          simp [Syn.text, parse, htake]
      | obj members =>
          obtain ⟨ws, cs, hws⟩ := takeWs_members members rest
          have hlen : members.text.length ≤ fuel := by
            simpa [Syn.text] using hfuel
          have hmembers : parse .members fuel (members.text ++ rest)
              = some (members, rest) := ih members hlen (fun h => by cases h)
          simp [Syn.text, parse, hws, hmembers]
      | lastElem before v after =>
          have hlen : v.text.length ≤ fuel := by
            simp only [Syn.text, List.length_append,
              List.length_singleton] at hfuel
            omega
          have hbefore (tail : List Char) :=
            takeWs_append before (v.stops tail)
          have hv : parse .value fuel (v.text ++ (after.1 ++ ']' :: rest))
              = some (v, after.1 ++ ']' :: rest) :=
            ih v hlen fun _ => stops_ws after (stops_cons rfl)
          have hafter : takeWs (after.1 ++ ']' :: rest)
              = (after, ']' :: rest) := takeWs_append after (stops_cons rfl)
          simp [Syn.text, parse, hbefore, hv, hafter]
      | elem before v after tail =>
          have hlen : v.text.length ≤ fuel ∧ tail.text.length ≤ fuel := by
            simp only [Syn.text, List.length_append,
              List.length_cons] at hfuel
            omega
          have hbefore (tail : List Char) :=
            takeWs_append before (v.stops tail)
          have hv : parse .value fuel
              (v.text ++ (after.1 ++ ',' :: (tail.text ++ rest)))
              = some (v, after.1 ++ ',' :: (tail.text ++ rest)) :=
            ih v hlen.1 fun _ => stops_ws after (stops_cons rfl)
          have hafter : takeWs (after.1 ++ ',' :: (tail.text ++ rest))
              = (after, ',' :: (tail.text ++ rest)) :=
            takeWs_append after (stops_cons rfl)
          have htail : parse .elems fuel (tail.text ++ rest)
              = some (tail, rest) := ih tail hlen.2 (fun h => by cases h)
          simp [Syn.text, parse, hbefore, hv, hafter, htail]
      | lastMember before key colon colon' v after =>
          have hlen : v.text.length ≤ fuel := by
            simp only [Syn.text, List.length_append,
              List.length_singleton] at hfuel
            omega
          have hkey (tail : List Char) :=
            takeKey_append before key colon colon' (v.stops tail)
          have hv : parse .value fuel (v.text ++ (after.1 ++ '}' :: rest))
              = some (v, after.1 ++ '}' :: rest) :=
            ih v hlen fun _ => stops_ws after (stops_cons rfl)
          have hafter : takeWs (after.1 ++ '}' :: rest)
              = (after, '}' :: rest) := takeWs_append after (stops_cons rfl)
          simp [Syn.text, parse, hkey, hv, hafter]
      | member before key colon colon' v after tail =>
          have hlen : v.text.length ≤ fuel ∧ tail.text.length ≤ fuel := by
            simp only [Syn.text, List.length_append,
              List.length_cons] at hfuel
            omega
          have hkey (tail : List Char) :=
            takeKey_append before key colon colon' (v.stops tail)
          have hv : parse .value fuel
              (v.text ++ (after.1 ++ ',' :: (tail.text ++ rest)))
              = some (v, after.1 ++ ',' :: (tail.text ++ rest)) :=
            ih v hlen.1 fun _ => stops_ws after (stops_cons rfl)
          have hafter : takeWs (after.1 ++ ',' :: (tail.text ++ rest))
              = (after, ',' :: (tail.text ++ rest)) :=
            takeWs_append after (stops_cons rfl)
          have htail : parse .members fuel (tail.text ++ rest)
              = some (tail, rest) := ih tail hlen.2 (fun h => by cases h)
          simp [Syn.text, parse, hkey, hv, hafter, htail]

theorem parseDocument_chars (d : Document) :
    parseDocument d.chars = some d := by
  obtain ⟨before, root, after⟩ := d
  have hstops : Stops isNumberChar after.1 := by
    simpa using stops_ws after (stops_nil isNumberChar)
  have hbefore := takeWs_append before (root.stops after.1)
  have hroot : parse .value
      ((before.1 ++ (root.text ++ after.1)).length + 1)
      (root.text ++ after.1) = some (root, after.1) := by
    refine parse_text root ?_ fun _ => hstops
    simp only [List.length_append]
    omega
  have hafter := takeWs_append after (stops_nil isWs)
  rw [List.append_nil] at hafter
  simp only [Document.chars, List.append_assoc, parseDocument, hbefore,
    hroot, Option.bind_some, hafter]

/-- A text has one tree at most. -/
theorem Document.chars_injective : Function.Injective Document.chars := by
  intro d d' h
  have hd := parseDocument_chars d
  rw [h, parseDocument_chars d'] at hd
  exact (Option.some.inj hd).symm

end Wup.Json
