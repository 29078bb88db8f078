/-
What a subject covers, read twice.

Routing matches a subject segment by segment (`matchesSubject`); the
snapshots of a subscription are chosen by the subject's own text
(`snapshotTarget`). The two agree on a subscription when every snapshot is
of an asset whose events are routed to it and, for a subject of one
market, every stored asset so routed gets one (`Agrees`).

Ids are texts of any kind, and routing splits the joined text of both: a
subject `{m}.{a}` may have any number of dots (`OneMarket`). `Covered`
lists where that makes a difference: subjects of more than two segments,
of which at most the first two are looked up; asset ids with a dot under
`m.*`, and market ids that go on after `m.` under `m.>`; and wildcard
characters inside a segment, which routing reads as themselves. A book
that cannot be read gets no snapshot at all, wrong or right.
-/
import Wup.Gateway.Proofs.Streams
import Wup.Gateway.Proofs.Snapshot
import Wup.Orderbook.Proofs.OrPanic

namespace Wup.Gateway

open ClientRegistry

variable {D : RustDecimal}

-- ======================================================== the two readings

/-- There is a book of the asset. -/
def Stored (store : OrderbookStore) (marketId assetId : String) : Prop :=
  (store.bookAt marketId assetId).isSome = true

instance (store : OrderbookStore) (marketId assetId : String) :
    Decidable (Stored store marketId assetId) :=
  inferInstanceAs (Decidable (_ = _))

/-- The asset's change events are routed to the subscription. -/
def Routed (subject marketId assetId : String) : Prop :=
  matchesSubject subject (splitDots (buildSubject marketId assetId)) = true

instance (subject marketId assetId : String) :
    Decidable (Routed subject marketId assetId) :=
  inferInstanceAs (Decidable (_ = _))

/-- The orderbooks the API answers a subject with, unless reading one of
them panics. -/
def fetched (D : RustDecimal) (store : OrderbookStore) (subject : String) :
    OrPanic (List OrderbookHttpResponse) :=
  match snapshotTarget subject with
  | .error _ => return []
  | .ok (.market marketId) => do
      let response ← OrPanic.getMarket D store marketId none
      return (response.map fun response =>
        response.assets.map .ofResponse).getD []
  | .ok .skip => return []
  | .ok (.asset marketId assetId) => do
      let response ← OrPanic.get D store marketId assetId none
      return (response.map .ofResponse).toList

/-- The orderbooks that are sent for a subject, if there is room. -/
def sent (D : RustDecimal) (store : OrderbookStore) (subject : String) :
    List OrderbookHttpResponse :=
  (fetched D store subject).toOption.getD []

/-- The book a subject is looked up by can be read, or all the books of
its market. -/
def Readable (D : RustDecimal) (store : OrderbookStore) (subject : String) :
    Prop :=
  match snapshotTarget subject with
  | .ok (.market marketId) =>
      (OrPanic.getMarket D store marketId none).isOk = true
  | .ok (.asset marketId assetId) =>
      (OrPanic.get D store marketId assetId none).isOk = true
  | _ => True

/-- No segment is a wildcard. -/
def Literal (text : String) : Prop :=
  ∀ s ∈ splitDots text, s ≠ ">" ∧ s ≠ "*"

/-- The subject is `{m}.{a}`, `{m}.*` or `{m}.>`, with any number of dots:
no segment but the last is a wildcard. -/
def OneMarket (subject : String) : Prop :=
  ∃ front last, subject = buildSubject front last
    ∧ '.' ∉ last.toList ∧ Literal front

/-- What the last segment of a pattern stands for: the rest, one segment,
or itself. -/
def StandsFor (last text : String) : Prop :=
  if last = ">" then True
  else if last = "*" then '.' ∉ text.toList
  else text = last

/-- The snapshots of a subscription are of assets routed to it, and of
every one where the subject is of one market. -/
structure Agrees (store : OrderbookStore) (subject : String)
    (sent : List (String × String)) : Prop where
  routed : ∀ asset ∈ sent, Routed subject asset.1 asset.2
  complete : OneMarket subject → sent.Nodup
    ∧ ∀ m a, (m, a) ∈ sent ↔ Stored store m a ∧ Routed subject m a

/-- Nothing is stored on which the two readings differ. -/
structure Covered (D : RustDecimal) (store : OrderbookStore)
    (subject : String) : Prop where
  /-- A plain subject of more than two segments starts with no asset that
  can be read. -/
  segments : isWildcardPattern subject = false →
    ∀ m a p rest, splitDots subject = m :: a :: p :: rest →
      Stored store m a → ¬ Readable D store subject
  /-- No asset id of the market of `m.*` has a dot. -/
  assets : ∀ m, splitDots subject = [m, "*"] →
    ∀ a, Stored store m a → '.' ∈ a.toList → ¬ Readable D store subject
  /-- No market id starts with the market of `m.>` and a dot. -/
  markets : ∀ m, splitDots subject = [m, ">"] → m ≠ "*" →
    ∀ m' a, Stored store m' a → ¬ (m ++ ".").toList <+: m'.toList
  /-- A segment with a wildcard character inside is part of no asset. -/
  characters : ∀ m a, splitDots subject = [m, a] → m ≠ "*" → a ≠ "*" →
    a ≠ ">" → isWildcardPattern subject = true → ¬ Stored store m a
  /-- No asset is spelled by a subject of more than two segments. -/
  dotted : ∀ front last, subject = buildSubject front last →
    '.' ∉ last.toList → Literal front → '.' ∈ front.toList →
    ∀ m a tail, Stored store m a → StandsFor last tail →
      buildSubject m a ≠ buildSubject front tail
  /-- What is looked up and matched can be read. -/
  readable : ∀ m last, splitDots subject = [m, last] → m ≠ "*" →
    ∀ a, Stored store m a → StandsFor last a → Readable D store subject

-- ============================================================ what is sent

section Sent

variable {registry : ClientRegistry} {clientId : ClientId} {now : Int}

/-- The snapshots go out in order until one is refused. -/
theorem waiting_sendAssets {tx : List Message}
    (hw : registry.waiting clientId = some tx)
    (assets : List OrderbookHttpResponse) :
    (sendAssets clientId now registry assets).1.waiting clientId
      = some (tx ++ (assets.take (clientChannelBufferSize - tx.length)).map
          fun orderbook =>
            .text (.snapshot (orderbook.toOrderbookData now))) := by
  induction assets generalizing registry tx with
  | nil => simpa [sendAssets] using hw
  | cons orderbook assets ih =>
      rw [sendAssets]
      rcases Nat.lt_or_ge tx.length clientChannelBufferSize with
        hroom | hfull
      · obtain ⟨hok, hsent⟩ := send_of_room
          (.snapshot (orderbook.toOrderbookData now)) hw hroom
        have hpair : registry.send clientId
            (.snapshot (orderbook.toOrderbookData now)) = (_, .ok ()) :=
          Prod.ext rfl hok
        have hslots : clientChannelBufferSize - tx.length
            = clientChannelBufferSize - (tx.length + 1) + 1 := by omega
        rw [hpair]
        simp only
        rw [ih hsent, List.length_append, List.length_singleton, hslots,
          List.take_succ_cons, List.map_cons, List.append_assoc]
        rfl
      · have h : registry.Full clientId tx := ⟨hw, hfull⟩
        have hpair : registry.send clientId
            (.snapshot (orderbook.toOrderbookData now))
              = (_, .error .channelSend) := Prod.ext rfl (h.send_self _)
        rw [hpair, Nat.sub_eq_zero_of_le hfull, List.take_zero,
          List.map_nil, List.append_nil]
        exact (h.send clientId _).1

/-- What is fetched is what goes out. -/
theorem sendSnapshots_eq (store : OrderbookStore) (closed subject : String) :
    (sendSnapshots D store closed registry clientId subject now).1
      = (sendAssets clientId now registry (sent D store subject)).1 := by
  unfold sendSnapshots sent fetched
  cases snapshotTarget subject with
  | error e => rfl
  | ok target =>
      cases target with
      | market marketId =>
          simp only
          cases OrPanic.getMarket D store marketId none with
          | error e => rfl
          | ok response => cases response <;> rfl
      | skip => rfl
      | asset marketId assetId =>
          simp only
          cases OrPanic.get D store marketId assetId none with
          | error e => rfl
          | ok response =>
              cases response with
              | none => rfl
              | some response =>
                  show (registry.send clientId _).1
                    = (sendAssets clientId now registry
                        [.ofResponse response]).1
                  rw [sendAssets]
                  split <;> simp [sendAssets, *]

end Sent

-- ======================================================== what is selected

/-- The snapshot of the asset is fetched, if there is one. -/
def Selected (subject marketId assetId : String) : Prop :=
  match snapshotTarget subject with
  | .ok (.market m) => marketId = m
  | .ok (.asset m a) => marketId = m ∧ assetId = a
  | _ => False

/-- The ids an orderbook carries. -/
def OrderbookHttpResponse.ids (orderbook : OrderbookHttpResponse) :
    String × String :=
  (orderbook.marketId, orderbook.assetId)

/-- The ids of the orderbooks sent for a subject. -/
def sentIds (D : RustDecimal) (store : OrderbookStore)
    (subject : String) : List (String × String) :=
  (sent D store subject).map (·.ids)

section Fetched

variable {store : OrderbookStore} {subject : String}

theorem fetchedIds_get (hkeyed : store.Keyed) (m a : String) :
    ((store.get D m a none).map OrderbookHttpResponse.ofResponse).toList.map
        (·.ids)
      = if Stored store m a then [(m, a)] else [] := by
  cases hget : store.get D m a none with
  | none =>
      have hstored : ¬ Stored store m a := by
        intro h
        obtain ⟨ob, hob⟩ := Option.isSome_iff_exists.1 h
        rw [OrderbookStore.get, hob] at hget
        cases hget
      rw [if_neg hstored]
      rfl
  | some response =>
      obtain ⟨ob, hob, -⟩ := Option.map_eq_some_iff.1 hget
      have hstored : Stored store m a := Option.isSome_iff_exists.2 ⟨ob, hob⟩
      obtain ⟨hm, ha⟩ := ids_get hkeyed hget
      rw [if_pos hstored]
      exact congrArg (fun ids => [ids]) (Prod.ext hm ha)

theorem fetchedIds_getMarket (hkeyed : store.Keyed) (m : String) :
    (((store.getMarket D m none).map fun response =>
        response.assets.map OrderbookHttpResponse.ofResponse).getD []).map
          (·.ids)
      = (((store.books.lookup m).map AList.keys).getD []).map
          fun a => (m, a) := by
  unfold OrderbookStore.getMarket
  cases hbooks : store.books.lookup m with
  | none => rfl
  | some books =>
      simp only [Option.map_some, Option.getD_some, HashMap.values,
        AList.keys, List.keys, List.map_map]
      refine List.map_congr_left fun e he => ?_
      have hob : store.bookAt m e.1 = some e.2 := by
        unfold OrderbookStore.bookAt
        rw [hbooks]
        exact AList.mem_lookup_iff.2 he
      obtain ⟨hm, ha⟩ := hkeyed m e.1 e.2 hob
      exact Prod.ext hm ha

theorem mem_marketKeys (m a : String) :
    a ∈ ((store.books.lookup m).map AList.keys).getD []
      ↔ Stored store m a := by
  unfold Stored OrderbookStore.bookAt
  cases store.books.lookup m with
  | none => simp
  | some books => exact AList.lookup_isSome.symm

theorem nodup_marketKeys (m : String) :
    (((store.books.lookup m).map AList.keys).getD []).Nodup := by
  cases store.books.lookup m with
  | none => exact List.nodup_nil
  | some books => exact books.keys_nodup

/-- What the plain readers have for a subject. -/
def looksUp (D : RustDecimal) (store : OrderbookStore) (subject : String) :
    List OrderbookHttpResponse :=
  match snapshotTarget subject with
  | .ok (.market m) => ((store.getMarket D m none).map fun response =>
      response.assets.map .ofResponse).getD []
  | .ok (.asset m a) => ((store.get D m a none).map .ofResponse).toList
  | _ => []

/-- What can be read is what the plain readers have. -/
theorem sent_of_readable (h : Readable D store subject) :
    sent D store subject = looksUp D store subject := by
  unfold sent fetched looksUp
  unfold Readable at h
  cases htarget : snapshotTarget subject with
  | error e => rfl
  | ok target =>
      rw [htarget] at h
      cases target with
      | skip => rfl
      | market m =>
          simp only
          rw [OrPanic.eq_ok_of_agrees (OrPanic.getMarket_agrees store m none)
            h]
          rfl
      | asset m a =>
          simp only
          rw [OrPanic.eq_ok_of_agrees (OrPanic.get_agrees store m a none) h]
          rfl

/-- Where a read panics nothing is sent. -/
theorem sent_of_not_readable (h : ¬ Readable D store subject) :
    sent D store subject = [] := by
  unfold sent fetched
  unfold Readable at h
  cases htarget : snapshotTarget subject with
  | error e => rfl
  | ok target =>
      rw [htarget] at h
      cases target with
      | skip => rfl
      | market m =>
          simp only at h ⊢
          cases hread : OrPanic.getMarket D store m none with
          | error e => rfl
          | ok response =>
              rw [hread] at h
              exact absurd rfl h
      | asset m a =>
          simp only at h ⊢
          cases hread : OrPanic.get D store m a none with
          | error e => rfl
          | ok response =>
              rw [hread] at h
              exact absurd rfl h

/-- The stored assets that are selected are sent, each once, if they can
be read. -/
theorem sentIds_spec (hkeyed : store.Keyed) (subject : String) :
    (sentIds D store subject).Nodup
      ∧ ∀ m a, (m, a) ∈ sentIds D store subject
        ↔ Readable D store subject ∧ Stored store m a
          ∧ Selected subject m a := by
  unfold sentIds
  by_cases hread : Readable D store subject
  · rw [sent_of_readable hread]
    simp only [hread, true_and]
    unfold Selected looksUp
    cases snapshotTarget subject with
    | error e => simp
    | ok target =>
        cases target with
        | skip => simp
        | asset marketId assetId =>
            simp only
            rw [fetchedIds_get hkeyed]
            refine ⟨by split <;> simp, fun m a => ?_⟩
            by_cases hstored : Stored store marketId assetId
            · rw [if_pos hstored, List.mem_singleton, Prod.mk.injEq]
              refine (and_iff_right_of_imp fun h => ?_).symm
              rwa [h.1, h.2]
            · rw [if_neg hstored]
              refine iff_of_false List.not_mem_nil fun h => hstored ?_
              rw [← h.2.1, ← h.2.2]
              exact h.1
        | market marketId =>
            simp only
            rw [fetchedIds_getMarket hkeyed]
            refine ⟨(nodup_marketKeys marketId).map fun a b h =>
              (Prod.mk.inj h).2, fun m a => ?_⟩
            simp only [List.mem_map, mem_marketKeys, Prod.mk.injEq]
            refine ⟨fun h => ?_, fun h => ⟨a, h.2 ▸ h.1, h.2.symm, rfl⟩⟩
            obtain ⟨a', hstored, rfl, rfl⟩ := h
            exact ⟨hstored, rfl⟩
  · rw [sent_of_not_readable hread]
    simp [hread]

end Fetched

/-- What is selected and can be read is routed, and what is routed to one
market's subject is selected and can be read. -/
def ReadAlike (D : RustDecimal) (store : OrderbookStore)
    (subject : String) : Prop :=
  (Readable D store subject → ∀ m a, Stored store m a →
      Selected subject m a → Routed subject m a)
    ∧ (OneMarket subject → ∀ m a, Stored store m a →
        Routed subject m a → Readable D store subject
          ∧ Selected subject m a)

/-- Snapshots and routing agree when the two readings do. -/
theorem agrees_iff {store : OrderbookStore} (hkeyed : store.Keyed)
    (subject : String) :
    Agrees store subject (sentIds D store subject)
      ↔ ReadAlike D store subject := by
  obtain ⟨hnodup, hmem⟩ := sentIds_spec (D := D) hkeyed subject
  refine ⟨fun h => ⟨fun hread m a hs hsel => ?_, fun hone m a hs hr => ?_⟩,
    fun h => ⟨fun asset hasset => ?_, fun hone => ⟨hnodup, fun m a => ?_⟩⟩⟩
  · exact h.routed (m, a) ((hmem m a).2 ⟨hread, hs, hsel⟩)
  · obtain ⟨hread, -, hsel⟩ :=
      (hmem m a).1 (((h.complete hone).2 m a).2 ⟨hs, hr⟩)
    exact ⟨hread, hsel⟩
  · obtain ⟨hread, hs, hsel⟩ := (hmem asset.1 asset.2).1 hasset
    exact h.1 hread asset.1 asset.2 hs hsel
  · rw [hmem]
    refine ⟨fun ⟨hread, hs, hsel⟩ => ⟨hs, h.1 hread m a hs hsel⟩,
      fun ⟨hs, hr⟩ => ?_⟩
    obtain ⟨hread, hsel⟩ := h.2 hone m a hs hr
    exact ⟨hread, hs, hsel⟩

-- ====================================================== segment by segment

section Segments

variable {subject m a p q : String}

theorem routed_def :
    Routed subject m a
      ↔ matchesParts (splitDots subject) (splitDots m ++ splitDots a)
        = true := by
  unfold Routed matchesSubject
  rw [splitDots_buildSubject]

/-- The first segment has no dot. -/
theorem dotless_front {rest : List String}
    (hsub : splitDots subject = p :: rest) : '.' ∉ p.toList := by
  have hmem : p ∈ splitDots subject := by
    rw [hsub]
    exact List.mem_cons_self
  exact (splitDots_of_mem hmem).1

/-- Two ids make two segments when neither has a dot. -/
theorem segments_eq_pair :
    splitDots m ++ splitDots a = [p, q]
      ↔ (splitDots m = [p] ∧ splitDots a = [q]) := by
  refine ⟨fun h => ?_, fun h => by rw [h.1, h.2]; rfl⟩
  obtain ⟨s, ss, hm⟩ := List.exists_cons_of_ne_nil (splitDots_ne_nil m)
  obtain ⟨t, ts, ha⟩ := List.exists_cons_of_ne_nil (splitDots_ne_nil a)
  rw [hm, ha] at h ⊢
  cases ss with
  | nil => simpa using h
  | cons s' ss => simp at h

/-- A text that is one segment is that segment. -/
theorem splitDots_eq_singleton_iff (hp : '.' ∉ p.toList) :
    splitDots m = [p] ↔ m = p := by
  rw [← splitDots_eq_singleton hp, splitDots_injective.eq_iff]

/-- `*` stands for a segment, so for neither id with a dot. -/
theorem routed_star (hsub : splitDots subject = [p, "*"]) (hp : p ≠ ">")
    (hdot : '.' ∉ p.toList) :
    Routed subject p a ↔ '.' ∉ a.toList := by
  have hstar : "*" ≠ ">" := by decide
  have hhead : splitDots p = [p] := splitDots_eq_singleton hdot
  rw [routed_def, hsub, hhead, List.singleton_append, matchesParts,
    if_neg hp]
  have hrest : matchesParts ["*"] (splitDots a) = true
      ↔ '.' ∉ a.toList := by
    refine ⟨fun h => ?_, fun h => ?_⟩
    · obtain ⟨t, ts, ha⟩ := List.exists_cons_of_ne_nil (splitDots_ne_nil a)
      rw [ha, matchesParts, if_neg hstar, if_pos rfl] at h
      cases ts with
      | nil =>
          have hmem : t ∈ splitDots a := by rw [ha]; exact List.mem_cons_self
          have heq : a = t :=
            (splitDots_eq_singleton_iff (splitDots_of_mem hmem).1).1 ha
          rw [heq]
          exact (splitDots_of_mem hmem).1
      | cons t' ts => cases h
    · rw [splitDots_eq_singleton h, matchesParts, if_neg hstar, if_pos rfl]
      rfl
  split
  · exact hrest
  · rw [if_pos rfl]
    exact hrest

/-- Under `m.*` only the market's own events are routed. -/
theorem market_of_routed_star (hsub : splitDots subject = [p, "*"])
    (hgt : p ≠ ">") (hstar : p ≠ "*") (h : Routed subject m a) : m = p := by
  rw [routed_def, hsub] at h
  obtain ⟨s, ss, hm⟩ := List.exists_cons_of_ne_nil (splitDots_ne_nil m)
  obtain ⟨t, ts, ha⟩ := List.exists_cons_of_ne_nil (splitDots_ne_nil a)
  rw [hm, ha, List.cons_append, matchesParts, if_neg hgt, if_neg hstar] at h
  split at h
  · next hps =>
      cases ss with
      | nil =>
          rw [hps, (splitDots_eq_singleton_iff (dotless_front hm)).1 hm]
      | cons s' ss => cases ss <;> simp [matchesParts] at h
  · cases h

/-- A text starts with a segment when it is that segment, or goes on with
a dot. -/
theorem head_splitDots (hdot : '.' ∉ p.toList) :
    (splitDots m).head? = some p
      ↔ m = p ∨ (p ++ ".").toList <+: m.toList := by
  refine ⟨fun h => ?_, fun h => ?_⟩
  · obtain ⟨s, ss, hm⟩ := List.exists_cons_of_ne_nil (splitDots_ne_nil m)
    rw [hm] at h
    obtain rfl := Option.some.inj h
    cases ss with
    | nil => exact Or.inl ((splitDots_eq_singleton_iff hdot).1 hm)
    | cons t ts =>
        refine Or.inr ⟨(String.intercalate "." (t :: ts)).toList, ?_⟩
        have hsplit : m.toList.splitOn '.'
            = s.toList :: t.toList :: ts.map String.toList := by
          have hback := congrArg (List.map String.toList) hm
          unfold splitDots at hback
          rw [List.map_map] at hback
          simpa [Function.comp_def] using hback
        have hjoin : ['.'].intercalate (m.toList.splitOn '.') = m.toList :=
          List.intercalate_splitOn '.'
        rw [hsplit, List.intercalate_cons_cons] at hjoin
        rw [← hjoin]
        simp [String.toList_intercalate]
  · rcases h with rfl | ⟨rest, hrest⟩
    · rw [splitDots_eq_singleton hdot]
      rfl
    · have hm : m = buildSubject p (String.ofList rest) := by
        refine String.toList_inj.1 ?_
        rw [← hrest]
        simp [buildSubject]
      rw [hm, splitDots_buildSubject, splitDots_eq_singleton hdot]
      rfl

/-- `>` stands for the rest: the market's own events, and those of the
markets that go on after its id and a dot. -/
theorem routed_rest (hsub : splitDots subject = [p, ">"]) (hgt : p ≠ ">")
    (hstar : p ≠ "*") (hdot : '.' ∉ p.toList) :
    Routed subject m a ↔ m = p ∨ (p ++ ".").toList <+: m.toList := by
  rw [routed_def, hsub, ← head_splitDots hdot]
  obtain ⟨s, ss, hm⟩ := List.exists_cons_of_ne_nil (splitDots_ne_nil m)
  obtain ⟨t, ts, ha⟩ := List.exists_cons_of_ne_nil (splitDots_ne_nil a)
  have hrest : matchesParts [">"] (ss ++ t :: ts) = true := by
    cases ss with
    | nil => rw [List.nil_append, matchesParts, if_pos rfl]
    | cons s' ss => rw [List.cons_append, matchesParts, if_pos rfl]
  rw [hm, ha, List.cons_append, matchesParts, if_neg hgt, if_neg hstar,
    hrest, List.head?_cons, Option.some.injEq]
  split
  · next hps => simp [hps]
  · next hps => simp [Ne.symm hps]

/-- A pattern without wildcard segments is matched by what it spells. -/
theorem routed_plain (hplain : ∀ s ∈ splitDots subject, s ≠ ">" ∧ s ≠ "*") :
    Routed subject m a ↔ splitDots subject = splitDots m ++ splitDots a := by
  rw [routed_def]
  exact matchesParts_exact hplain

/-- Literal segments match themselves. -/
theorem matchesParts_append {parts : List String}
    (hplain : ∀ s ∈ parts, s ≠ ">" ∧ s ≠ "*")
    {rest subjectParts : List String} :
    matchesParts (parts ++ rest) subjectParts = true
      ↔ ∃ tail, subjectParts = parts ++ tail
        ∧ matchesParts rest tail = true := by
  induction parts generalizing subjectParts with
  | nil => simp
  | cons s parts ih =>
      obtain ⟨⟨hgt, hstar⟩, hparts⟩ := List.forall_mem_cons.1 hplain
      cases subjectParts with
      | nil => simp [matchesParts]
      | cons s' subjectParts =>
          rw [List.cons_append, matchesParts, if_neg hgt, if_neg hstar]
          by_cases hs : s = s'
          · subst hs
            rw [if_pos rfl, ih hparts]
            simp
          · rw [if_neg hs]
            refine iff_of_false Bool.false_ne_true ?_
            rintro ⟨tail, htail, -⟩
            exact hs (List.cons.inj htail).1.symm

/-- A text that has the segments of `front` and then some goes on from it
after a dot. -/
theorem splitDots_eq_append {text front : String} {tail : List String}
    (htail : tail ≠ []) (h : splitDots text = splitDots front ++ tail) :
    ∃ rest, text = buildSubject front rest ∧ splitDots rest = tail := by
  have hdots : ∀ l ∈ tail.map String.toList, '.' ∉ l := by
    intro l hl
    obtain ⟨s, hs, rfl⟩ := List.mem_map.1 hl
    have hmem : s ∈ splitDots text := by
      rw [h]
      exact List.mem_append_right _ hs
    exact (splitDots_of_mem hmem).1
  have hofList : String.ofList ∘ String.toList = id :=
    funext fun s => String.ofList_toList
  have hrest : splitDots (String.ofList (['.'].intercalate
      (tail.map String.toList))) = tail := by
    unfold splitDots
    rw [String.toList_ofList, List.splitOn_intercalate '.' hdots
      (by simpa using htail), List.map_map, hofList, List.map_id]
  refine ⟨_, splitDots_injective ?_, hrest⟩
  rw [h, splitDots_buildSubject, hrest]

/-- The last segment of a pattern matches the texts it stands for. -/
theorem matchesParts_last {last text : String} (hlast : '.' ∉ last.toList) :
    matchesParts [last] (splitDots text) = true ↔ StandsFor last text := by
  obtain ⟨s, ss, hs⟩ := List.exists_cons_of_ne_nil (splitDots_ne_nil text)
  have hone : ss = [] ↔ '.' ∉ text.toList := by
    refine ⟨fun h => ?_, fun h => ?_⟩
    · have heq := (splitDots_eq_singleton_iff (dotless_front hs)).1 (h ▸ hs)
      exact heq ▸ dotless_front hs
    · rw [splitDots_eq_singleton h] at hs
      exact (List.cons.inj hs).2.symm
  have hnil : ∀ ss : List String, matchesParts [] ss = true ↔ ss = [] := by
    intro ss
    cases ss <;> simp [matchesParts]
  unfold StandsFor
  rw [hs, matchesParts]
  split
  · exact iff_of_true rfl trivial
  · split
    · rw [hnil, hone]
    · rw [← splitDots_eq_singleton_iff hlast, hs]
      split
      · next hsame =>
          rw [hnil, hsame]
          simp
      · next hother =>
          refine iff_of_false Bool.false_ne_true fun h => hother ?_
          exact (List.cons.inj h).1.symm

/-- Of a subject of one market, what goes on from its front with a text
the last segment stands for. -/
theorem routed_front {front last : String} (hlast : '.' ∉ last.toList)
    (hfront : Literal front) :
    Routed (buildSubject front last) m a
      ↔ ∃ tail, StandsFor last tail
        ∧ buildSubject m a = buildSubject front tail := by
  unfold Routed matchesSubject
  rw [splitDots_buildSubject front, splitDots_eq_singleton hlast,
    matchesParts_append hfront]
  refine ⟨fun h => ?_, fun h => ?_⟩
  · obtain ⟨tail, hsplit, hmatch⟩ := h
    have htail : tail ≠ [] := by
      rintro rfl
      cases hmatch
    obtain ⟨text, htext, rfl⟩ := splitDots_eq_append htail hsplit
    exact ⟨text, (matchesParts_last hlast).1 hmatch, htext⟩
  · obtain ⟨tail, hstands, htext⟩ := h
    refine ⟨splitDots tail, ?_, (matchesParts_last hlast).2 hstands⟩
    rw [htext, splitDots_buildSubject]

/-- Two segments, the first no wildcard, are a subject of one market. -/
theorem oneMarket_pair (hsub : splitDots subject = [p, q]) (hgt : p ≠ ">")
    (hstar : p ≠ "*") : OneMarket subject := by
  have hmem : ∀ s ∈ [p, q], '.' ∉ s.toList :=
    fun s hs => (splitDots_of_mem (hsub ▸ hs)).1
  have hp := splitDots_eq_singleton (hmem p (by simp))
  have hq := splitDots_eq_singleton (hmem q (by simp))
  refine ⟨p, q, splitDots_injective ?_, hmem q (by simp), fun s hs => ?_⟩
  · rw [hsub, splitDots_buildSubject, hp, hq]
    rfl
  · rw [hp] at hs
    rw [List.mem_singleton.1 hs]
    exact ⟨hgt, hstar⟩

/-- And the only way to read them so. -/
theorem front_of_pair (hsub : splitDots subject = [p, q])
    {front last : String} (h : subject = buildSubject front last)
    (hlast : '.' ∉ last.toList) :
    front = p ∧ last = q := by
  rw [h, splitDots_buildSubject, splitDots_eq_singleton hlast] at hsub
  obtain ⟨s, ss, hs⟩ := List.exists_cons_of_ne_nil (splitDots_ne_nil front)
  rw [hs] at hsub
  cases ss with
  | nil =>
      simp only [List.cons_append, List.nil_append, List.cons.injEq,
        and_true] at hsub
      obtain ⟨rfl, rfl⟩ := hsub
      exact ⟨(splitDots_eq_singleton_iff (dotless_front hs)).1 hs, rfl⟩
  | cons s' ss => simp at hsub

/-- The front of more than two segments has a dot. -/
theorem dotted_front {r : String} {rest : List String}
    (hsub : splitDots subject = p :: q :: r :: rest) {front last : String}
    (h : subject = buildSubject front last) (hlast : '.' ∉ last.toList) :
    '.' ∈ front.toList := by
  by_contra hdot
  rw [h, splitDots_buildSubject, splitDots_eq_singleton hlast,
    splitDots_eq_singleton hdot] at hsub
  cases hsub

-- ============================================================== the target

theorem selected_market (hsub : splitDots subject = [p, q])
    (hq : q = "*" ∨ q = ">") : Selected subject m a ↔ m = p := by
  unfold Selected snapshotTarget
  simp only [hsub]
  rw [if_pos (by simpa using hq)]
  rfl

theorem selected_asset {rest : List String}
    (hsub : splitDots subject = p :: q :: rest)
    (hplain : isWildcardPattern subject = false) :
    Selected subject m a ↔ m = p ∧ a = q := by
  have hq := segments_plain hplain q (by simp [hsub])
  unfold Selected snapshotTarget
  simp only [hsub]
  rw [if_neg (by simp [hq.1, hq.2]), hplain, if_neg Bool.false_ne_true]

/-- Nothing is selected for the other wildcard patterns. -/
theorem not_selected_wildcard (hwild : isWildcardPattern subject = true)
    (hno : ∀ p q, splitDots subject = [p, q] → q ≠ "*" ∧ q ≠ ">") :
    ¬ Selected subject m a := by
  have hmarket : ¬ ((splitDots subject).length = 2
      ∧ ((splitDots subject)[1]? = some "*"
        ∨ (splitDots subject)[1]? = some ">")) := by
    rintro ⟨hlength, hsecond⟩
    obtain ⟨p, q, hsub⟩ := List.length_eq_two.1 hlength
    rw [hsub] at hsecond
    have hne := hno p q hsub
    simp [hne.1, hne.2] at hsecond
  unfold Selected snapshotTarget
  simp only
  rw [if_neg hmarket, if_pos hwild]
  exact id

theorem not_selected_single (hsub : splitDots subject = [p]) :
    ¬ Selected subject m a := by
  unfold Selected snapshotTarget
  simp only [hsub]
  rw [if_neg (by simp)]
  split
  · next h =>
      split at h
      · cases h
      · cases h
  · next h =>
      split at h
      · cases h
      · cases h
  · exact id

/-- A subject with a wildcard segment is a pattern. -/
theorem isWildcardPattern_of_mem (h : p ∈ splitDots subject)
    (hp : p = "*" ∨ p = ">") : isWildcardPattern subject = true := by
  by_contra hne
  obtain ⟨hgt, hstar⟩ := segments_plain (Bool.eq_false_iff.2 hne) p h
  exact hp.elim hstar hgt

/-- An accepted subject does not start with `>` and go on. -/
theorem front_ne_rest {rest : List String}
    (hvalid : validatePattern subject = none)
    (hsub : splitDots subject = p :: q :: rest) : p ≠ ">" := by
  rintro rfl
  unfold validatePattern at hvalid
  split at hvalid
  · cases hvalid
  · rw [hsub] at hvalid
    simp at hvalid

end Segments

-- ========================================================== the comparison

section Comparison

variable {store : OrderbookStore} {subject p q : String}

/-- What is not looked up can be read. -/
theorem readable_of_not_selected
    (h : ∀ m a, ¬ Selected subject m a) : Readable D store subject := by
  unfold Readable
  unfold Selected at h
  cases htarget : snapshotTarget subject with
  | error e => trivial
  | ok target =>
      simp only [htarget] at h
      cases target with
      | market m => exact absurd rfl (h m "")
      | skip => trivial
      | asset m a => exact absurd ⟨rfl, rfl⟩ (h m a)

theorem readAlike_single (hsub : splitDots subject = [p]) :
    ReadAlike D store subject ↔ Covered D store subject := by
  have hfront : ∀ front last, subject ≠ buildSubject front last := by
    rintro front last rfl
    rw [splitDots_buildSubject] at hsub
    obtain ⟨s, ss, hs⟩ := List.exists_cons_of_ne_nil (splitDots_ne_nil front)
    obtain ⟨t, ts, ht⟩ := List.exists_cons_of_ne_nil (splitDots_ne_nil last)
    rw [hs, ht] at hsub
    cases ss <;> cases hsub
  refine iff_of_true ⟨fun _ m a _ hsel => ?_, fun hone => ?_⟩ ?_
  · exact absurd hsel (not_selected_single hsub)
  · obtain ⟨front, last, h, -⟩ := hone
    exact absurd h (hfront front last)
  · exact ⟨by simp [hsub], by simp [hsub], by simp [hsub], by simp [hsub],
      fun front last h => absurd h (hfront front last), by simp [hsub]⟩

/-- Of a subject of more than two segments nothing that is stored may be
routed to it. -/
theorem dotted_iff {r : String} {rest : List String}
    (hsub : splitDots subject = p :: q :: r :: rest) :
    (OneMarket subject → ∀ m a, Stored store m a → ¬ Routed subject m a)
      ↔ ∀ front last, subject = buildSubject front last →
        '.' ∉ last.toList → Literal front → '.' ∈ front.toList →
        ∀ m a tail, Stored store m a → StandsFor last tail →
          buildSubject m a ≠ buildSubject front tail := by
  refine ⟨fun h front last heq hlast hfront _ m a tail hs hstands htext =>
      ?_,
    fun h hone m a hs hrouted => ?_⟩
  · refine h ⟨front, last, heq, hlast, hfront⟩ m a hs ?_
    rw [heq]
    exact (routed_front hlast hfront).2 ⟨tail, hstands, htext⟩
  · obtain ⟨front, last, heq, hlast, hfront⟩ := hone
    rw [heq] at hrouted
    obtain ⟨tail, hstands, htext⟩ := (routed_front hlast hfront).1 hrouted
    exact h front last heq hlast hfront (dotted_front hsub heq hlast) m a
      tail hs hstands htext

theorem readAlike_long {r : String} {rest : List String}
    (hsub : splitDots subject = p :: q :: r :: rest) :
    ReadAlike D store subject ↔ Covered D store subject := by
  have hno : ∀ m a, splitDots subject = [m, a] → a ≠ "*" ∧ a ≠ ">" := by
    intro m a hpair
    rw [hsub] at hpair
    cases hpair
  cases hw : isWildcardPattern subject with
  | true =>
      -- nothing is looked up
      have hsel : ∀ m a, ¬ Selected subject m a :=
        fun m a => not_selected_wildcard hw hno
      refine ⟨fun h => ⟨by simp [hw], by simp [hsub], by simp [hsub],
        by simp [hsub], (dotted_iff hsub).1 fun hone m a hs hr => ?_,
        by simp [hsub]⟩, fun h => ⟨fun _ m a _ hm => absurd hm (hsel m a),
          fun hone m a hs hr => ?_⟩⟩
      · exact hsel m a (h.2 hone m a hs hr).2
      · exact absurd hr ((dotted_iff hsub).2 h.dotted hone m a hs)
  | false =>
      -- what is looked up is spelled by two segments, the subject by more
      have hrouted : ¬ Routed subject p q := by
        rw [routed_plain (segments_plain hw), hsub]
        intro h
        have hp : p ∈ splitDots subject := by simp [hsub]
        have hq : q ∈ splitDots subject := by simp [hsub]
        rw [(splitDots_of_mem hp).2, (splitDots_of_mem hq).2] at h
        cases h
      have hsel : ∀ m a, Selected subject m a ↔ m = p ∧ a = q :=
        fun m a => selected_asset hsub hw
      refine ⟨fun h => ⟨fun _ m a p' rest' hsub' hs hread => ?_,
        by simp [hsub], by simp [hsub], by simp [hsub],
        (dotted_iff hsub).1 fun hone m a hs hr => ?_, by simp [hsub]⟩,
        fun h => ⟨fun hread m a hs hm => ?_, fun hone m a hs hr => ?_⟩⟩
      · rw [hsub] at hsub'
        cases hsub'
        exact hrouted (h.1 hread p q hs ((hsel p q).2 ⟨rfl, rfl⟩))
      · obtain ⟨rfl, rfl⟩ := (hsel m a).1 (h.2 hone m a hs hr).2
        exact hrouted hr
      · obtain ⟨rfl, rfl⟩ := (hsel m a).1 hm
        exact absurd hread (h.segments hw m a r rest hsub hs)
      · exact absurd hr ((dotted_iff hsub).2 h.dotted hone m a hs)

/-- The first of two segments of one market is no wildcard. -/
theorem OneMarket.front_ne_star (h : OneMarket subject)
    (hsub : splitDots subject = [p, q]) : p ≠ "*" := by
  obtain ⟨front, last, heq, hlast, hfront⟩ := h
  obtain ⟨rfl, rfl⟩ := front_of_pair hsub heq hlast
  refine (hfront front ?_).2
  rw [splitDots_eq_singleton (dotless_front hsub)]
  exact List.mem_singleton_self front

/-- A front without a dot is none that `Covered.dotted` speaks of. -/
theorem not_dotted (hsub : splitDots subject = [p, q])
    {front last : String} (h : subject = buildSubject front last)
    (hlast : '.' ∉ last.toList) : '.' ∉ front.toList := by
  rw [(front_of_pair hsub h hlast).1]
  exact dotless_front hsub

theorem readAlike_star (hvalid : validatePattern subject = none)
    (hsub : splitDots subject = [p, "*"]) :
    ReadAlike D store subject ↔ Covered D store subject := by
  have hgt := front_ne_rest hvalid hsub
  have hdot := dotless_front hsub
  have hstands : ∀ a, StandsFor "*" a ↔ '.' ∉ a.toList := by
    intro a
    unfold StandsFor
    rw [if_neg (by decide), if_pos rfl]
  have hw : isWildcardPattern subject = true :=
    isWildcardPattern_of_mem (p := "*") (by simp [hsub]) (Or.inl rfl)
  have hsel : ∀ m a, Selected subject m a ↔ m = p :=
    fun m a => selected_market hsub (Or.inl rfl)
  refine ⟨fun h => ⟨by simp [hw], fun m hsub' a hs hdotted hread => ?_,
    by simp [hsub], by simp [hsub],
    fun front last heq hlast _ hd => absurd hd (not_dotted hsub heq hlast),
    fun m last hsub' hstar a hs ha => ?_⟩,
    fun h => ⟨fun hread m a hs hm => ?_, fun hone m a hs hr => ?_⟩⟩
  · rw [hsub] at hsub'
    cases hsub'
    exact (routed_star hsub hgt hdot).1 (h.1 hread p a hs ((hsel p a).2 rfl))
      hdotted
  · rw [hsub] at hsub'
    cases hsub'
    exact (h.2 (oneMarket_pair hsub hgt hstar) p a hs
      ((routed_star hsub hgt hdot).2 ((hstands a).1 ha))).1
  · obtain rfl := (hsel m a).1 hm
    refine (routed_star hsub hgt hdot).2 fun hdotted => ?_
    exact h.assets m hsub a hs hdotted hread
  · have hstar := hone.front_ne_star hsub
    obtain rfl := market_of_routed_star hsub hgt hstar hr
    have ha := (routed_star hsub hgt hdot).1 hr
    exact ⟨h.readable m "*" hsub hstar a hs ((hstands a).2 ha),
      (hsel m a).2 rfl⟩

theorem readAlike_rest (hvalid : validatePattern subject = none)
    (hsub : splitDots subject = [p, ">"]) :
    ReadAlike D store subject ↔ Covered D store subject := by
  have hgt := front_ne_rest hvalid hsub
  have hdot := dotless_front hsub
  have hw : isWildcardPattern subject = true :=
    isWildcardPattern_of_mem (p := ">") (by simp [hsub]) (Or.inr rfl)
  have hsel : ∀ m a, Selected subject m a ↔ m = p :=
    fun m a => selected_market hsub (Or.inr rfl)
  have hown : ∀ a, Routed subject p a := by
    intro a
    by_cases hstar : p = "*"
    · obtain ⟨t, ts, ha⟩ := List.exists_cons_of_ne_nil (splitDots_ne_nil a)
      rw [routed_def, hsub, splitDots_eq_singleton hdot, ha,
        List.singleton_append, matchesParts, if_neg hgt, if_pos hstar,
        matchesParts, if_pos rfl]
    · exact (routed_rest hsub hgt hstar hdot).2 (Or.inl rfl)
  refine ⟨fun h => ⟨by simp [hw], by simp [hsub],
    fun m hsub' hstar m' a hs hprefix => ?_, by simp [hsub],
    fun front last heq hlast _ hd => absurd hd (not_dotted hsub heq hlast),
    fun m last hsub' hstar a hs _ => ?_⟩,
    fun h => ⟨fun _ m a _ hm => ?_, fun hone m a hs hr => ?_⟩⟩
  · rw [hsub] at hsub'
    cases hsub'
    have hm' : m' = p := (hsel m' a).1 (h.2 (oneMarket_pair hsub hgt hstar)
      m' a hs ((routed_rest hsub hgt hstar hdot).2 (Or.inr hprefix))).2
    -- a text is no longer than itself
    have hlength := hprefix.length_le
    rw [hm'] at hlength
    simp at hlength
  · rw [hsub] at hsub'
    cases hsub'
    exact (h.2 (oneMarket_pair hsub hgt hstar) p a hs (hown a)).1
  · rw [(hsel m a).1 hm]
    exact hown a
  · have hstar := hone.front_ne_star hsub
    rcases (routed_rest hsub hgt hstar hdot).1 hr with rfl | hprefix
    · exact ⟨h.readable m ">" hsub hstar a hs (by simp [StandsFor]),
        (hsel m a).2 rfl⟩
    · exact absurd hprefix (h.markets p hsub hstar m a hs)

/-- Two segments that stand for themselves spell one asset. -/
theorem routed_pair (hsub : splitDots subject = [p, q])
    (hp : p ≠ ">" ∧ p ≠ "*") (hq : q ≠ ">" ∧ q ≠ "*") :
    Routed subject m a ↔ m = p ∧ a = q := by
  have hmem : ∀ s ∈ [p, q], '.' ∉ s.toList :=
    fun s hs => (splitDots_of_mem (hsub ▸ hs)).1
  have hplain : ∀ s ∈ splitDots subject, s ≠ ">" ∧ s ≠ "*" := by
    rw [hsub]
    simp [hp, hq]
  rw [routed_plain hplain, hsub, eq_comm, segments_eq_pair,
    splitDots_eq_singleton_iff (hmem p (by simp)),
    splitDots_eq_singleton_iff (hmem q (by simp))]

theorem readAlike_pair (hvalid : validatePattern subject = none)
    (hsub : splitDots subject = [p, q]) (hqs : q ≠ "*") (hqg : q ≠ ">") :
    ReadAlike D store subject ↔ Covered D store subject := by
  have hgt := front_ne_rest hvalid hsub
  have hstands : ∀ a, StandsFor q a ↔ a = q := by
    intro a
    unfold StandsFor
    rw [if_neg hqg, if_neg hqs]
  have hspelled : p ≠ "*" → ∀ m a, Routed subject m a ↔ m = p ∧ a = q :=
    fun hps m a => routed_pair hsub ⟨hgt, hps⟩ ⟨hqg, hqs⟩
  cases hw : isWildcardPattern subject with
  | true =>
      have hsel : ∀ m a, ¬ Selected subject m a := by
        refine fun m a => not_selected_wildcard hw fun p' q' hsub' => ?_
        rw [hsub] at hsub'
        cases hsub'
        exact ⟨hqs, hqg⟩
      have hread : Readable D store subject := readable_of_not_selected hsel
      refine ⟨fun h => ⟨by simp [hw], by simp [hsub, hqs],
        by simp [hsub, hqg], fun m a hsub' hm _ _ _ hs => ?_,
        fun front last heq hlast _ hd =>
          absurd hd (not_dotted hsub heq hlast),
        fun _ _ _ _ _ _ _ => hread⟩,
        fun h => ⟨fun _ m a _ hm => absurd hm (hsel m a),
          fun hone m a hs hr => ?_⟩⟩
      · rw [hsub] at hsub'
        cases hsub'
        exact hsel p q (h.2 (oneMarket_pair hsub hgt hm) p q hs
          ((hspelled hm p q).2 ⟨rfl, rfl⟩)).2
      · have hps := hone.front_ne_star hsub
        obtain ⟨rfl, rfl⟩ := (hspelled hps m a).1 hr
        exact absurd hs (h.characters m a hsub hps hqs hqg hw)
  | false =>
      have hps := (segments_plain hw p (by simp [hsub])).2
      have hsel : ∀ m a, Selected subject m a ↔ m = p ∧ a = q :=
        fun m a => selected_asset hsub hw
      refine ⟨fun h => ⟨by simp [hsub], by simp [hsub, hqs],
        by simp [hsub, hqg], by simp [hw], fun front last heq hlast _ hd =>
          absurd hd (not_dotted hsub heq hlast),
        fun m last hsub' _ a hs ha => ?_⟩,
        fun h => ⟨fun _ m a _ hm => ?_, fun _ m a hs hr => ?_⟩⟩
      · rw [hsub] at hsub'
        cases hsub'
        obtain rfl := (hstands a).1 ha
        exact (h.2 (oneMarket_pair hsub hgt hps) p a hs
          ((hspelled hps p a).2 ⟨rfl, rfl⟩)).1
      · exact (hspelled hps m a).2 ((hsel m a).1 hm)
      · obtain ⟨rfl, rfl⟩ := (hspelled hps m a).1 hr
        exact ⟨h.readable m a hsub hps a hs ((hstands a).2 rfl),
          (hsel m a).2 ⟨rfl, rfl⟩⟩

theorem readAlike_iff (store : OrderbookStore)
    (hvalid : validatePattern subject = none) :
    ReadAlike D store subject ↔ Covered D store subject := by
  cases hsub : splitDots subject with
  | nil => exact absurd hsub (splitDots_ne_nil subject)
  | cons p rest =>
      cases rest with
      | nil => exact readAlike_single hsub
      | cons q rest =>
          cases rest with
          | cons r rest => exact readAlike_long hsub
          | nil =>
              by_cases hqs : q = "*"
              · exact readAlike_star hvalid (hqs ▸ hsub)
              · by_cases hqg : q = ">"
                · exact readAlike_rest hvalid (hqg ▸ hsub)
                · exact readAlike_pair hvalid hsub hqs hqg

end Comparison

-- ============================================================== the result

/-- Snapshots and routing agree on an accepted subject exactly when nothing
is stored on which the two readings differ. What is fetched for it goes to
the client, as far as its channel has room. -/
theorem snapshots_agree_iff (D : RustDecimal)
    (history : List NormalizedOrderbook) (subject : String)
    (hvalid : validatePattern subject = none) :
    (∀ (closed : String) (registry : ClientRegistry) (clientId : ClientId)
      (now : Int) tx, registry.waiting clientId = some tx →
        (sendSnapshots D (runStore D history) closed registry clientId
            subject now).1.waiting clientId
          = some (tx ++ ((sent D (runStore D history) subject).take
              (clientChannelBufferSize - tx.length)).map fun orderbook =>
                .text (.snapshot (orderbook.toOrderbookData now))))
    ∧ (Agrees (runStore D history) subject
        (sentIds D (runStore D history) subject)
      ↔ Covered D (runStore D history) subject) := by
  refine ⟨fun closed registry clientId now tx hw => ?_, ?_⟩
  · rw [sendSnapshots_eq]
    exact waiting_sendAssets hw _
  · exact (agrees_iff (keyed_runStore history) subject).trans
      (readAlike_iff _ hvalid)

theorem stored_runStore {history : List NormalizedOrderbook}
    {m a : String} :
    Stored (runStore D history) m a ↔ (m, a) ∈ history.map (·.key) := by
  unfold Stored
  rw [OrderbookStore.bookAt_runStore, isSome_family]

/-- All assets of the only market. -/
theorem snapshots_agree_one_market :
    let store := runStore rustDecimal
      [.deltaOf "polymarket" "m" "a" [⟨.buy, "0.5", "10"⟩]]
    validatePattern "m.*" = none
      ∧ sentIds rustDecimal store "m.*" = [("m", "a")]
      ∧ Agrees store "m.*" (sentIds rustDecimal store "m.*") := by
  intro store
  have hvalid : validatePattern "m.*" = none := by decide +kernel
  have hsub : splitDots "m.*" = ["m", "*"] := by decide +kernel
  have hw : isWildcardPattern "m.*" = true := by decide +kernel
  have hids : sentIds rustDecimal store "m.*" = [("m", "a")] := by
    decide +kernel
  have hread : Readable rustDecimal store "m.*" := by
    by_contra hno
    rw [sentIds, sent_of_not_readable hno] at hids
    cases hids
  refine ⟨hvalid, hids, (snapshots_agree_iff rustDecimal _ "m.*" hvalid).2.2
    ⟨by simp [hw], fun m _ a hstored hdotted _ => ?_, by simp [hsub],
      by simp [hsub], fun front last heq hlast _ hd =>
        absurd hd (not_dotted hsub heq hlast), fun _ _ _ _ _ _ _ => hread⟩⟩
  have hkey := stored_runStore.1 hstored
  rw [List.map_singleton, List.mem_singleton] at hkey
  rw [(Prod.mk.inj hkey).2] at hdotted
  revert hdotted
  decide

/-- A subject of three segments: the snapshot of an asset whose events the
subscription never gets. -/
theorem snapshot_without_events :
    ¬ ∀ (history : List NormalizedOrderbook) (subject : String),
      validatePattern subject = none →
        Agrees (runStore rustDecimal history) subject
          (sentIds rustDecimal (runStore rustDecimal history) subject) := by
  intro h
  obtain ⟨history, hsent⟩ : ∃ history : List NormalizedOrderbook,
      ("m", "a") ∈ sentIds rustDecimal (runStore rustDecimal history)
        "m.a.x" :=
    ⟨[.deltaOf "polymarket" "m" "a" [⟨.buy, "0.5", "10"⟩]],
      by decide +kernel⟩
  have hrouted : ¬ Routed "m.a.x" "m" "a" := by decide +kernel
  have hvalid : validatePattern "m.a.x" = none := by decide +kernel
  have hclaim := (h history "m.a.x" hvalid).routed ("m", "a") hsent
  exact hrouted hclaim

end Wup.Gateway
