/-
When the time of receipt is put in and nothing else is touched.

The timestamp is a member of JSON (`stampText_eq`), so that the edit of
an array is the addition of a member to the objects that open with a key
(`Document.chars_addFirst`), unless a string ends in a brace, which makes
the text one that is no JSON (`Document.writeFirst_ne`). An object gets
the member in front, and one without members is left with a comma before
its closing brace.

Chain: `stamped_iff` says of one element whether it has got its
timestamp, `stamped_list_iff` of an array, and `onlyAdds_iff` of any
payload.
-/
import Wup.Polymarket.Stamp

namespace Wup.Polymarket

open Json Normalizer ParsedMessage

variable {J : SerdeJson} {t : Int}

-- =========================================================== the timestamp

/-- The name of the timestamp, as it is written. -/
def stampKey : StringLit := .of receivedAtKey

/-- The timestamp, as it is written. -/
def stampValue (t : Int) : Syn .value := .num (.ofInt t)

theorem stampKey_value : stampKey.value = receivedAtKey :=
  StringLit.value_of receivedAtKey

theorem stampValue_value (hJ : J.Lawful) (hlow : -2 ^ 63 ≤ t)
    (hhigh : t < 2 ^ 63) :
    (stampValue t).value J.number = some (.num (.int t)) := by
  have hread : J.number (NumberLit.ofInt t).1 = some (.int t) :=
    hJ.number_intText hlow hhigh
  rw [stampValue, Syn.value, hread, Option.map_some]

theorem timestampField_eq (t : Int) :
    timestampField t = memberText stampKey (stampValue t) := by
  have hkey : "\"received_at\":".toList = stampKey.text ++ [':'] := by
    decide +kernel
  have hfield : stampKey.text ++ [':'] ++ intText t ++ [',']
      = memberText stampKey (stampValue t) := by
    unfold memberText
    rw [List.append_assoc, List.append_assoc]
    rfl
  unfold timestampField
  rw [hkey]
  exact hfield

/-- Its quote would end a string too early. -/
theorem scan_inside_stamp (t : Int) :
    scan .inside (memberText stampKey (stampValue t)) = none := by
  have hkey : scan .inside "\"received_at\":".toList = none := by
    decide +kernel
  rw [← timestampField_eq]
  unfold timestampField
  rw [List.append_assoc, scan_append, hkey]
  rfl

-- ================================================================ the edit

private theorem isWhiteSpace_of_isWs {c : Char} (h : isWs c = true) :
    isWhiteSpace c = true := by
  simp only [isWs, Bool.or_eq_true, decide_eq_true_eq] at h
  rcases h with ((rfl | rfl) | rfl) | rfl <;> decide

private theorem dropWhile_ws (ws : Ws) {c : Char} (rest : List Char)
    (hc : isWhiteSpace c = false) :
    (ws.1 ++ c :: rest).dropWhile isWhiteSpace = c :: rest := by
  have hws : ∀ c ∈ ws.1, isWhiteSpace c = true := fun c hmem =>
    isWhiteSpace_of_isWs (List.all_eq_true.1 ws.2 c hmem)
  rw [List.dropWhile_append_of_pos hws, List.dropWhile_cons_of_neg]
  simp [hc]

/-- Where the text starts with a bracket, every brace with a quote behind
it is looked for. -/
theorem injectChars_bracket (ws : Ws) (rest : List Char) (t : Int) :
    injectChars (ws.1 ++ '[' :: rest) t
      = writeFirst stampKey (stampValue t) (ws.1 ++ '[' :: rest) := by
  have hhead := dropWhile_ws ws rest (rfl : isWhiteSpace '[' = false)
  rw [injectChars, hhead, List.head?_cons, if_pos rfl, timestampField_eq]
  rfl

/-- Where it starts with a brace, the brace is the first one. -/
theorem injectChars_brace (ws : Ws) (rest : List Char) (t : Int) :
    injectChars (ws.1 ++ '{' :: rest) t
      = ws.1 ++ '{' :: (memberText stampKey (stampValue t) ++ rest) := by
  have hhead := dropWhile_ws ws rest (rfl : isWhiteSpace '{' = false)
  have hws : ∀ c ∈ ws.1, decide (c ≠ '{') = true := by
    intro c hmem
    have hc := List.all_eq_true.1 ws.2 c hmem
    refine decide_eq_true ?_
    rintro rfl
    cases hc
  have hdrop : (ws.1 ++ '{' :: rest).dropWhile (· ≠ '{')
      = '{' :: rest := by
    rw [List.dropWhile_append_of_pos hws]
    rfl
  have htake : (ws.1 ++ '{' :: rest).takeWhile (· ≠ '{') = ws.1 := by
    rw [List.takeWhile_append_of_pos hws]
    simp
  rw [injectChars, hhead, List.head?_cons, if_neg (by decide), hdrop, htake,
    timestampField_eq]
  simp

/-- The text that comes out, read. -/
theorem fromStr_inject (hJ : J.Lawful) {d : Document} {v : Value} :
    J.fromStr (injectReceivedAt d.text t) = some v
      ↔ ∃ d' : Document, d'.chars = injectChars d.chars t
        ∧ d'.root.depth < SerdeJson.recursionLimit
        ∧ d'.root.value J.number = some v := by
  have htext (d' : Document) :
      d'.text = injectReceivedAt d.text t
        ↔ d'.chars = injectChars d.chars t := by
    unfold injectReceivedAt Document.text
    rw [String.toList_ofList]
    exact String.ofList_inj
  simp only [hJ.fromStr_eq_some_iff, htext]

-- ============================================================= one element

section Element

variable {number : List Char → Option Number}
  (hv : (stampValue t).value number = some (.num (.int t)))

/-- The time of receipt in front of the members. -/
theorem stamped_front {ms ms' : Node .members}
    (hnone : ms'.find? receivedAtKey = none)
    (hsame : ms'.without receivedAtKey = ms.without receivedAtKey) :
    Stamped t (.obj ms)
      (.obj (.member receivedAtKey (.num (.int t)) ms')) := by
  constructor
  · show (ms'.find? receivedAtKey).or _ = _
    rw [hnone, if_pos rfl]
    rfl
  · simp only [unstamped, Node.without, if_true, hsame]

include hv in
/-- An element gets its timestamp exactly if it is an object that opens
with a key. -/
theorem stamped_iff {e : Syn .value} {x x' : Value}
    (hx : e.value number = some x) (hfresh : Fresh x)
    (hx' : (Syn.addFirst stampKey (stampValue t) e).value number
      = some x') : Stamped t x x' ↔ OpensWithKey e := by
  obtain ⟨ms, rfl, hnone⟩ := hfresh
  cases e with
  | obj members =>
      obtain ⟨ms₀, hms, heq⟩ := Option.map_eq_some_iff.1 hx
      obtain rfl : ms₀ = ms := by injection heq
      obtain ⟨ms', hms', hsame, hkeys⟩ :=
        value_addFirst stampKey hv members hms
      rw [stampKey_value] at hsame
      -- no other member has come under the key of the timestamp
      have hnone' : ms'.find? receivedAtKey = none := by
        rw [Node.find?_eq_none_iff] at hnone ⊢
        rwa [hkeys]
      cases hfirst : members.startsWithKey with
      | true =>
          simp only [Syn.addFirst, hfirst, if_true, Syn.value, hv, hms',
            Option.bind_some, Option.map_some, Option.some.injEq,
            stampKey_value] at hx'
          rw [← hx']
          exact iff_of_true (stamped_front hnone' hsame) hfirst
      | false =>
          simp only [Syn.addFirst, hfirst, Syn.value, hms', if_false,
            Bool.false_eq_true, Option.map_some, Option.some.injEq] at hx'
          rw [← hx']
          refine iff_of_false (fun h => ?_) fun h => ?_
          · have ht : ms'.find? receivedAtKey = _ := h.1
            rw [hnone'] at ht
            cases ht
          · rw [OpensWithKey, hfirst] at h
            cases h
  | emptyObj ws =>
      obtain rfl := Option.some.inj hx'
      refine iff_of_false (fun h => ?_) id
      cases h.1
  | arr elems =>
      obtain ⟨es, -, heq⟩ := Option.map_eq_some_iff.1 hx
      cases heq
  | num lit =>
      obtain ⟨n, -, heq⟩ := Option.map_eq_some_iff.1 hx
      cases heq
  | _ => cases hx

include hv in
/-- All elements get theirs exactly if all are such objects. -/
theorem stamped_list_iff {es : List (Syn .value)} {xs xs' : List Value}
    (hxs : List.Forall₂ (fun e x => e.value number = some x) es xs)
    (hfresh : ∀ x ∈ xs, Fresh x)
    (hxs' : List.Forall₂ (fun e x => e.value number = some x)
      (es.map (Syn.addFirst stampKey (stampValue t))) xs') :
    List.Forall₂ (Stamped t) xs xs' ↔ ∀ e ∈ es, OpensWithKey e := by
  induction hxs generalizing xs' with
  | nil =>
      cases hxs'
      simp
  | cons hx hxs ih =>
      obtain ⟨x', xs', hx', htail', rfl⟩ := List.forall₂_cons_left_iff.1 hxs'
      have hhead := stamped_iff hv hx (hfresh _ (.head _)) hx'
      have htail := ih (fun x hmem => hfresh x (.tail _ hmem)) htail'
      rw [List.forall₂_cons, hhead, htail, List.forall_mem_cons]

include hv in
/-- An element with no such object inside becomes itself with its
timestamp. -/
theorem value_addReceivedAt {e : Syn .value} {x : Value}
    (hx : e.value number = some x) (hopen : OpensWithKey e)
    (hinside : openingsInside e = 0) :
    (Syn.addFirst stampKey (stampValue t) e).value number
      = some (addReceivedAt t x) := by
  cases e with
  | obj members =>
      obtain ⟨ms, hms, rfl⟩ := Option.map_eq_some_iff.1 hx
      have hfirst : members.startsWithKey = true := hopen
      have hsame := addFirst_eq_self stampKey (stampValue t) members
        hinside
      simp [Syn.addFirst, hfirst, Syn.value, hv, hsame, hms,
        stampKey_value, addReceivedAt]
  | _ => exact hopen.elim

include hv in
theorem values_addReceivedAt {es : List (Syn .value)} {xs xs' : List Value}
    (hxs : List.Forall₂ (fun e x => e.value number = some x) es xs)
    (hxs' : List.Forall₂ (fun e x => e.value number = some x)
      (es.map (Syn.addFirst stampKey (stampValue t))) xs')
    (hopen : ∀ e ∈ es, OpensWithKey e)
    (hinside : ∀ e ∈ es, openingsInside e = 0) :
    xs' = xs.map (addReceivedAt t) := by
  induction hxs generalizing xs' with
  | nil =>
      cases hxs'
      rfl
  | cons hx hxs ih =>
      obtain ⟨x', xs', hx', htail', rfl⟩ := List.forall₂_cons_left_iff.1 hxs'
      have hhead := value_addReceivedAt hv hx (hopen _ (.head _))
        (hinside _ (.head _))
      rw [List.map_cons, Option.some.inj (hx'.symm.trans hhead),
        ih htail' (fun e he => hopen e (.tail _ he))
          fun e he => hinside e (.tail _ he)]

end Element

-- ================================================================ payloads

section Payload

variable {before after : Ws} {v v' : Value}

/-- Once the payload is read again, what is left to see is the
messages. -/
theorem onlyAdds_iff_forall₂ {payload : String} (hlow : -2 ^ 63 ≤ t)
    (hhigh : t < 2 ^ 63) (hv : J.fromStr payload = some v)
    (hfresh : ∀ msg ∈ messages v, Fresh msg)
    (hv' : J.fromStr (injectReceivedAt payload t) = some v')
    (harr : v'.isArr = v.isArr) :
    OnlyAdds J t payload v
      ↔ List.Forall₂ (Stamped t) (messages v) (messages v') := by
  refine ⟨fun ⟨w, hw, _, h, _⟩ => ?_, fun h => ?_⟩
  · obtain rfl := Option.some.inj (hw.symm.trans hv')
    exact h
  · exact ⟨v', hv', harr, h,
      parseAndTransform_stamped hlow hhigh hv hv' hfresh h⟩

/-- An object gets the timestamp in front of its members. -/
theorem inject_obj (hJ : J.Lawful) (hlow : -2 ^ 63 ≤ t)
    (hhigh : t < 2 ^ 63) {members : Syn .members}
    (hv : J.fromStr (Document.mk before (.obj members) after).text
      = some v) :
    J.fromStr (injectReceivedAt
        (Document.mk before (.obj members) after).text t)
      = some (addReceivedAt t v) := by
  obtain ⟨hdepth, hvalue⟩ := hJ.fromStr_text.1 hv
  obtain ⟨ms, hms, rfl⟩ := Option.map_eq_some_iff.1 hvalue
  refine (fromStr_inject hJ).2 ⟨⟨before, .obj (.member noWs stampKey noWs
    noWs (stampValue t) noWs members), after⟩, ?_, ?_, ?_⟩
  · have hchars := injectChars_brace before (members.text ++ after.1) t
    simpa [Document.chars, Syn.text, keyText, memberText, noWs]
      using hchars.symm
  · simpa [Syn.depth, stampValue] using hdepth
  · simp [Syn.value, stampValue_value hJ hlow hhigh, hms, stampKey_value,
      addReceivedAt]

/-- One without members is left with a comma before its closing brace. -/
theorem inject_emptyObj (hJ : J.Lawful) (ws : Ws) :
    J.fromStr (injectReceivedAt
        (Document.mk before (.emptyObj ws) after).text t) = none := by
  refine Option.eq_none_iff_forall_ne_some.2 fun v hv => ?_
  obtain ⟨d', hd', -⟩ := (fromStr_inject hJ).1 hv
  have hchars := injectChars_brace before (ws.1 ++ '}' :: after.1) t
  have hstop : scan .free (before.1 ++ '{'
      :: (memberText stampKey (stampValue t) ++ (ws.1 ++ '}' :: after.1)))
        = none := by
    rw [scan_append, scan_ws before (.inl (.inl rfl)), Option.bind_some]
    show scan .free (memberText stampKey (stampValue t) ++ _) = none
    rw [scan_append, scan_memberText, Option.bind_some, scan_append,
      scan_ws ws (.inl (.inr rfl))]
    rfl
  refine not_document hstop d' ?_
  rw [hd', ← hchars]
  simp [Document.chars, Syn.text]

/-- An array is edited as the addition of a member. -/
theorem injectChars_arr {elems : Syn .elems} :
    injectChars (Document.mk before (.arr elems) after).chars t
      = writeFirst stampKey (stampValue t)
          (Document.mk before (.arr elems) after).chars := by
  have hchars := injectChars_bracket before (elems.text ++ after.1) t
  simpa [Document.chars, Syn.text] using hchars

theorem inject_arr (hJ : J.Lawful) (hlow : -2 ^ 63 ≤ t)
    (hhigh : t < 2 ^ 63) {elems : Syn .elems}
    (hclear : ∀ lit ∈ elems.literals, lit.1.getLast? ≠ some '{')
    {es : Node .elems}
    (hv : J.fromStr (Document.mk before (.arr elems) after).text
      = some (.arr es)) :
    ∃ es' : Node .elems,
      J.fromStr (injectReceivedAt
        (Document.mk before (.arr elems) after).text t) = some (.arr es')
      ∧ List.Forall₂ (fun e x => e.value J.number = some x)
          elems.elemTrees es.elemList
      ∧ List.Forall₂ (fun e x => e.value J.number = some x)
          (elems.elemTrees.map (Syn.addFirst stampKey (stampValue t)))
          es'.elemList := by
  obtain ⟨hdepth, hvalue⟩ := hJ.fromStr_text.1 hv
  obtain ⟨es₀, hes, heq⟩ := Option.map_eq_some_iff.1 hvalue
  obtain rfl : es₀ = es := by injection heq
  obtain ⟨es', hes', -, -⟩ := value_addFirst stampKey
    (stampValue_value hJ hlow hhigh) elems hes
  refine ⟨es', ?_, value_elemTrees elems rfl hes, ?_⟩
  · refine (fromStr_inject hJ).2 ⟨Document.addFirst stampKey (stampValue t)
      ⟨before, .arr elems, after⟩, ?_, ?_, ?_⟩
    · rw [injectChars_arr, Document.chars_addFirst _ hclear]
    · have hsame := depth_addFirst stampKey
        (rfl : (stampValue t).depth = 0) (Syn.arr elems)
      exact hsame.trans_lt hdepth
    · show ((Syn.addFirst stampKey (stampValue t) elems).value
        J.number).map Node.arr = _
      rw [hes', Option.map_some]
  · rw [← elemTrees_addFirst stampKey (stampValue t) elems rfl]
    exact value_elemTrees _ rfl hes'

/-- A string that ends in a brace spoils an array. -/
theorem inject_arr_broken (hJ : J.Lawful) {elems : Syn .elems}
    {lit : StringLit} (hlit : lit ∈ elems.literals)
    (hlast : lit.1.getLast? = some '{') :
    J.fromStr (injectReceivedAt
        (Document.mk before (.arr elems) after).text t) = none := by
  refine Option.eq_none_iff_forall_ne_some.2 fun v hv => ?_
  obtain ⟨d', hd', -⟩ := (fromStr_inject hJ).1 hv
  rw [injectChars_arr] at hd'
  exact Document.writeFirst_ne ⟨before, .arr elems, after⟩
    (scan_inside_stamp t) hlit hlast d' hd'

/-- An empty array stays as it is. -/
theorem inject_emptyArr (hJ : J.Lawful) {ws : Ws}
    (hv : J.fromStr (Document.mk before (.emptyArr ws) after).text
      = some v) :
    J.fromStr (injectReceivedAt
      (Document.mk before (.emptyArr ws) after).text t) = some v := by
  refine (fromStr_inject hJ).2 ⟨_, ?_, hJ.fromStr_text.1 hv⟩
  have hchars := injectChars_bracket before (ws.1 ++ ']' :: after.1) t
  have hsame : writeFirst stampKey (stampValue t)
      (Document.mk before (.emptyArr ws) after).chars
        = (Document.mk before (.emptyArr ws) after).chars :=
    Document.chars_addFirst ⟨before, .emptyArr ws, after⟩ fun _ h =>
      absurd h List.not_mem_nil
  refine hsame.symm.trans ?_
  simpa [Document.chars, Syn.text] using hchars.symm

/-- What the edit does to a payload of messages without a time of
receipt: it only adds theirs exactly if the text is as the edit relies on,
and it is the very same value otherwise if no object inside a message
opens with a key. -/
theorem onlyAdds_iff (hJ : J.Lawful) (d : Document)
    (hv : J.fromStr d.text = some v)
    (hfresh : ∀ msg ∈ messages v, Fresh msg) (t : Int)
    (hlow : -2 ^ 63 ≤ t) (hhigh : t < 2 ^ 63) :
    (OnlyAdds J t d.text v ↔ Injectable d.root)
      ∧ (Injectable d.root → NothingInside d.root →
        ExactlyAdds J t d.text v) := by
  have hstamp := stampValue_value hJ hlow hhigh
  have hvalue := (hJ.fromStr_text.1 hv).2
  obtain ⟨before, root, after⟩ := d
  cases root with
  | obj members =>
      obtain ⟨ms, hms, rfl⟩ := Option.map_eq_some_iff.1 hvalue
      have hv' := inject_obj hJ hlow hhigh hv
      obtain ⟨ms', heq, hnone⟩ := hfresh (.obj ms) (.head _)
      obtain rfl : ms = ms' := by injection heq
      have hadds := (onlyAdds_iff_forall₂ hlow hhigh hv hfresh hv' rfl).2
      have hfront : List.Forall₂ (Stamped t) [.obj ms]
          [addReceivedAt t (.obj ms)] := .cons (stamped_front hnone rfl) .nil
      exact ⟨iff_of_true (hadds hfront) trivial, fun _ _ => hv'⟩
  | emptyObj ws =>
      refine ⟨iff_of_false (fun ⟨w, hw, _⟩ => ?_) id, False.elim⟩
      cases (inject_emptyObj hJ ws).symm.trans hw
  | emptyArr ws =>
      obtain rfl := Option.some.inj hvalue
      have hv' : J.fromStr (injectReceivedAt _ t) = some (.arr .nil) :=
        inject_emptyArr hJ hv
      have hadds := (onlyAdds_iff_forall₂ hlow hhigh hv hfresh hv' rfl).2
      exact ⟨iff_of_true (hadds .nil) trivial, fun _ _ => hv'⟩
  | arr elems =>
      obtain ⟨es, hes, rfl⟩ := Option.map_eq_some_iff.1 hvalue
      by_cases hclear : ∀ lit ∈ elems.literals, lit.1.getLast? ≠ some '{'
      · obtain ⟨es', hv', hlist, hlist'⟩ :=
          inject_arr hJ hlow hhigh hclear hv
        have hadds := onlyAdds_iff_forall₂ hlow hhigh hv hfresh hv' rfl
        have hstamped := stamped_list_iff hstamp hlist hfresh hlist'
        refine ⟨?_, fun hopen hinside => ?_⟩
        · rw [hadds, show Injectable (.arr elems) ↔ _ from
            and_iff_left hclear]
          exact hstamped
        · have hsame := values_addReceivedAt hstamp hlist hlist' hopen.1
            hinside
          have hes' := eq_of_heq (Node.ofElems_elemList es' rfl)
          rw [hsame] at hes'
          rw [ExactlyAdds, hv', ← hes']
          rfl
      · push Not at hclear
        obtain ⟨lit, hlit, hlast⟩ := hclear
        refine ⟨iff_of_false (fun ⟨w, hw, _⟩ => ?_) fun h =>
          h.2 lit hlit hlast, fun h => absurd hlast (h.2 lit hlit)⟩
        cases (inject_arr_broken hJ hlit hlast).symm.trans hw
  | num lit =>
      obtain ⟨n, -, rfl⟩ := Option.map_eq_some_iff.1 hvalue
      obtain ⟨_, h, -⟩ := hfresh _ (.head _)
      cases h
  | _ =>
      obtain rfl := Option.some.inj hvalue
      obtain ⟨_, h, -⟩ := hfresh _ (.head _)
      cases h

end Payload

-- ================================================================= a batch

/-- A message of the exchange. -/
def bookValue : Value :=
  .obj (.member "event_type" (.str "book")
    (.member "asset_id" (.str "a") (.member "market" (.str "m")
      (.member "bids" (.arr .nil) (.member "asks" (.arr .nil)
        (.member "timestamp" (.str "1") .done))))))

/-- A batch of one message, written without whitespace. -/
def bookBatch : Document :=
  let string (name : String) (s : String) (rest : Syn .members) :=
    Syn.member noWs (.of name) noWs noWs (.str (.of s)) noWs rest
  let empty (name : String) (rest : Syn .members) :=
    Syn.member noWs (.of name) noWs noWs (.emptyArr noWs) noWs rest
  ⟨noWs, .arr (.lastElem noWs (.obj (string "event_type" "book"
    (string "asset_id" "a" (string "market" "m" (empty "bids"
      (empty "asks" (.lastMember noWs (.of "timestamp") noWs noWs
        (.str (.of "1")) noWs))))))) noWs), noWs⟩

theorem onlyAdds_bookBatch :
    OnlyAdds compactJson 7 bookBatch.text (.arr (.cons bookValue .nil)) := by
  have hread : compactJson.fromStr bookBatch.text
      = some (.arr (.cons bookValue .nil)) := by
    decide +kernel
  have hfresh : ∀ msg ∈ messages (.arr (.cons bookValue .nil)),
      Fresh msg :=
    List.forall_mem_singleton.2 ⟨_, rfl, by decide +kernel⟩
  refine (onlyAdds_iff compactJson_lawful bookBatch hread hfresh 7
    (by decide) (by decide)).1.2 ⟨List.forall_mem_singleton.2 rfl, ?_⟩
  decide +kernel

/-- A space behind the brace: the text is sent on as it is. -/
theorem spaced_batch_not_stamped :
    let payload := "[\x7b \"event_type\":\"book\",\"asset_id\":\"a\"," ++
      "\"market\":\"m\",\"bids\":[],\"asks\":[],\"timestamp\":\"1\"\x7d]"
    compactJson.fromStr payload = some (.arr (.cons bookValue .nil))
      ∧ (∀ msg ∈ messages (.arr (.cons bookValue .nil)), Fresh msg)
      ∧ injectReceivedAt payload 7 = payload
      ∧ ¬ OnlyAdds compactJson 7 payload (.arr (.cons bookValue .nil)) := by
  intro payload
  have hread : compactJson.fromStr payload
      = some (.arr (.cons bookValue .nil)) := by
    decide +kernel
  have hsame : injectReceivedAt payload 7 = payload := by decide +kernel
  refine ⟨hread, List.forall_mem_singleton.2 ⟨_, rfl, by decide +kernel⟩,
    hsame, ?_⟩
  rintro ⟨v', hv', -, hstamped, -⟩
  rw [hsame, hread] at hv'
  obtain rfl := Option.some.inj hv'
  obtain ⟨h, -⟩ := List.forall₂_cons.1 hstamped
  have hnone : bookValue.get? receivedAtKey = none := by decide +kernel
  rw [h.1] at hnone
  cases hnone

end Wup.Polymarket
