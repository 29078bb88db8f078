/-
Sorted maps whose keys compare through a rank.

The standard library's tree maps overwrite the stored key on an update;
an entry-style update keeps the key that created the entry. The
difference shows exactly when the key order is coarser than equality
(two spellings of one number), so this file carries its own small
sorted map: a list of entries strictly increasing in `rank`, with the
order as a field of the structure.

# The readers

Everything a caller can ask of a map goes through `find`: `get?` is its
value half, `getKey?` its key half. Each operation (`upsert`,
`mapValues`, `retain`) has one `find` equation, and the `get?` and
`getKey?` equations are read off it. The traversal lemmas at the end
(`minOf_find?`, `maxOf_find?_reverse`, `ranks_eq_of_forall_mem`) are
what an ordered walk of the entries needs: first hit is least, last hit
is greatest, and the ranks determine the order.
-/
import Wup.Lib.Extremum

namespace Wup

variable {κ α V W : Type*} [LinearOrder α] {rank : κ → α}

/-- A sorted map: entries strictly increasing in the rank of their
key, so that no two keys share a rank. -/
structure BTreeMap (rank : κ → α) (V : Type*) where
  entries : List (κ × V)
  sorted : entries.Pairwise fun a b => rank a.1 < rank b.1

namespace BTreeMap

-- ============================================================== list level

/-- Entry-style update on a sorted list: a new entry goes to its place,
an existing one keeps its key and has its value replaced. -/
def upsertList (rank : κ → α) (k : κ) (f : Option V → V) :
    List (κ × V) → List (κ × V)
  | [] => [(k, f none)]
  | e :: es =>
      if rank k < rank e.1 then (k, f none) :: e :: es
      else if rank k = rank e.1 then (e.1, f (some e.2)) :: es
      else e :: upsertList rank k f es

/-- An update adds no rank but the key's. -/
private theorem mem_upsertList {k : κ} {f : Option V → V} :
    ∀ {l : List (κ × V)} {e : κ × V}, e ∈ upsertList rank k f l →
      rank e.1 = rank k ∨ ∃ e' ∈ l, rank e'.1 = rank e.1 := by
  intro l
  induction l with
  | nil =>
      intro e he
      simp only [upsertList, List.mem_singleton] at he
      exact Or.inl (by rw [he])
  | cons a l ih =>
      intro e he
      simp only [upsertList] at he
      split at he
      · rcases List.mem_cons.1 he with rfl | he
        · exact Or.inl rfl
        · exact Or.inr ⟨e, he, rfl⟩
      · split at he
        next hk =>
          rcases List.mem_cons.1 he with rfl | he
          · exact Or.inl hk.symm
          · exact Or.inr ⟨e, List.mem_cons_of_mem _ he, rfl⟩
        next =>
          rcases List.mem_cons.1 he with rfl | he
          · exact Or.inr ⟨e, List.mem_cons_self .., rfl⟩
          · rcases ih he with h | ⟨e', he', hr⟩
            · exact Or.inl h
            · exact Or.inr ⟨e', List.mem_cons_of_mem _ he', hr⟩

/-- An update keeps the list strictly increasing. -/
private theorem sorted_upsertList (k : κ) (f : Option V → V) :
    ∀ {l : List (κ × V)},
      l.Pairwise (fun a b => rank a.1 < rank b.1) →
      (upsertList rank k f l).Pairwise
        fun a b => rank a.1 < rank b.1 := by
  intro l
  induction l with
  | nil => intro _; simp [upsertList]
  | cons a l ih =>
      intro hs
      obtain ⟨ha, hl⟩ := List.pairwise_cons.1 hs
      simp only [upsertList]
      split
      next hlt =>
        refine List.pairwise_cons.2 ⟨fun b hb => ?_, hs⟩
        rcases List.mem_cons.1 hb with rfl | hb
        · exact hlt
        · exact hlt.trans (ha b hb)
      next hnlt =>
        split
        next => exact List.pairwise_cons.2 ⟨ha, hl⟩
        next hne =>
          refine List.pairwise_cons.2 ⟨fun b hb => ?_, ih hl⟩
          have hak : rank a.1 < rank k :=
            lt_of_le_of_ne (not_lt.1 hnlt) (Ne.symm hne)
          rcases mem_upsertList hb with h | ⟨b', hb', hr⟩
          · rw [h]; exact hak
          · rw [← hr]; exact ha b' hb'

/-- No entry of a list above `r` has rank `r`. -/
private theorem find?_eq_none_of_lt {r : α} {l : List (κ × V)}
    (h : ∀ e ∈ l, r < rank e.1) :
    l.find? (fun e => rank e.1 = r) = none := by
  rw [List.find?_eq_none]
  intro e he
  simpa using (h e he).ne'

/-- What a lookup sees after an update: at the key's rank the updated
entry, under the key it already had; elsewhere the old entry. -/
private theorem find?_upsertList (k : κ) (f : Option V → V) (r : α) :
    ∀ {l : List (κ × V)},
      l.Pairwise (fun a b => rank a.1 < rank b.1) →
      (upsertList rank k f l).find? (fun e => rank e.1 = r)
        = if rank k = r then
            some ((l.find? (fun e => rank e.1 = r)).elim (k, f none)
              fun e => (e.1, f (some e.2)))
          else l.find? (fun e => rank e.1 = r) := by
  intro l
  induction l with
  | nil => intro _; by_cases h : rank k = r <;> simp [upsertList, h]
  | cons a l ih =>
      intro hs
      obtain ⟨ha, hl⟩ := List.pairwise_cons.1 hs
      simp only [upsertList]
      split
      next hlt =>
        by_cases h : rank k = r
        · have hnone : (a :: l).find? (fun e => rank e.1 = r) = none := by
            refine find?_eq_none_of_lt fun e he => ?_
            rcases List.mem_cons.1 he with rfl | he
            · exact h ▸ hlt
            · exact h ▸ hlt.trans (ha e he)
          rw [hnone]
          simp [h]
        · rw [List.find?_cons_of_neg (by simpa using h), if_neg h]
      next hnlt =>
        split
        next heq =>
          by_cases h : rank k = r
          · simp [h, ← heq]
          · have har : rank a.1 ≠ r := fun har => h (heq.trans har)
            simp [h, har]
        next hne =>
          have hak : rank a.1 ≠ rank k := Ne.symm hne
          by_cases har : rank a.1 = r
          · have h : rank k ≠ r := fun h => hne (h.trans har.symm)
            simp [har, h]
          · rw [List.find?_cons_of_neg (by simpa using har),
              List.find?_cons_of_neg (by simpa using har), ih hl]

-- ============================================================= the readers

/-- The entry stored at a rank. -/
def find (m : BTreeMap rank V) (r : α) : Option (κ × V) :=
  m.entries.find? fun e => rank e.1 = r

/-- The value stored at a rank. -/
def get? (m : BTreeMap rank V) (r : α) : Option V := (m.find r).map (·.2)

/-- The key stored at a rank: the one that created the entry. -/
def getKey? (m : BTreeMap rank V) (r : α) : Option κ :=
  (m.find r).map (·.1)

/-- The empty map. -/
def empty (rank : κ → α) (V : Type*) : BTreeMap rank V := ⟨[], .nil⟩

/-- In a sorted map a stored entry is the one its rank finds. -/
theorem mem_entries_iff {m : BTreeMap rank V} {e : κ × V} :
    e ∈ m.entries ↔ m.find (rank e.1) = some e := by
  unfold find
  constructor
  · intro he
    have hs := m.sorted
    generalize m.entries = l at he hs
    induction l with
    | nil => cases he
    | cons a l ih =>
        obtain ⟨ha, hl⟩ := List.pairwise_cons.1 hs
        rcases List.mem_cons.1 he with rfl | he
        · simp
        · have hne : rank a.1 ≠ rank e.1 := (ha e he).ne
          rw [List.find?_cons_of_neg (by simpa using hne)]
          exact ih he hl
  · exact List.mem_of_find?_eq_some

/-- A found entry has the rank it was looked up by. -/
theorem rank_of_find {m : BTreeMap rank V} {r : α} {e : κ × V}
    (h : m.find r = some e) : rank e.1 = r := by
  simpa using List.find?_some h

/-- Key and value are present together. -/
theorem isSome_getKey? (m : BTreeMap rank V) (r : α) :
    (m.getKey? r).isSome = (m.get? r).isSome := by
  simp [getKey?, get?]

/-- A value is stored at `r` exactly when some entry of rank `r` holds
it. -/
theorem get?_eq_some_iff {m : BTreeMap rank V} {r : α} {v : V} :
    m.get? r = some v ↔ ∃ k, (k, v) ∈ m.entries ∧ rank k = r := by
  unfold get?
  rw [Option.map_eq_some_iff]
  refine ⟨fun h => ?_, fun h => ?_⟩
  · obtain ⟨⟨k, v'⟩, he, rfl⟩ := h
    exact ⟨k, List.mem_of_find?_eq_some he, rank_of_find he⟩
  · obtain ⟨k, he, rfl⟩ := h
    exact ⟨(k, v), mem_entries_iff.1 he, rfl⟩

/-- A key is stored at `r` exactly when it has that rank and some entry
is under it. -/
theorem getKey?_eq_some_iff {m : BTreeMap rank V} {r : α} {k : κ} :
    m.getKey? r = some k ↔ ∃ v, (k, v) ∈ m.entries ∧ rank k = r := by
  unfold getKey?
  rw [Option.map_eq_some_iff]
  refine ⟨fun h => ?_, fun h => ?_⟩
  · obtain ⟨⟨k', v⟩, he, rfl⟩ := h
    exact ⟨v, List.mem_of_find?_eq_some he, rank_of_find he⟩
  · obtain ⟨v, he, rfl⟩ := h
    exact ⟨(k, v), mem_entries_iff.1 he, rfl⟩

-- ========================================================== the operations

/-- Entry-style update: `f` sees the stored value, if any; the key of
an existing entry stays. -/
def upsert (m : BTreeMap rank V) (k : κ) (f : Option V → V) :
    BTreeMap rank V :=
  ⟨upsertList rank k f m.entries, sorted_upsertList k f m.sorted⟩

/-- Rewrite every value in place. -/
def mapValues (m : BTreeMap rank V) (f : V → W) : BTreeMap rank W :=
  ⟨m.entries.map fun e => (e.1, f e.2), by
    rw [List.pairwise_map]
    exact m.sorted⟩

/-- Keep the entries whose value passes the test. -/
def retain (m : BTreeMap rank V) (p : V → Bool) : BTreeMap rank V :=
  ⟨m.entries.filter fun e => p e.2, m.sorted.filter _⟩

theorem find_upsert (m : BTreeMap rank V) (k : κ) (f : Option V → V)
    (r : α) :
    (m.upsert k f).find r
      = if rank k = r then
          some ((m.find r).elim (k, f none) fun e => (e.1, f (some e.2)))
        else m.find r :=
  find?_upsertList k f r m.sorted

@[simp] theorem get?_upsert (m : BTreeMap rank V) (k : κ)
    (f : Option V → V) (r : α) :
    (m.upsert k f).get? r
      = if rank k = r then some (f (m.get? r)) else m.get? r := by
  unfold get?
  rw [find_upsert]
  by_cases h : rank k = r
  · cases hf : m.find r <;> simp [h]
  · simp [h]

@[simp] theorem getKey?_upsert (m : BTreeMap rank V) (k : κ)
    (f : Option V → V) (r : α) :
    (m.upsert k f).getKey? r
      = if rank k = r then some ((m.getKey? r).getD k)
        else m.getKey? r := by
  unfold getKey?
  rw [find_upsert]
  by_cases h : rank k = r
  · cases hf : m.find r <;> simp [h]
  · simp [h]

theorem find_mapValues (m : BTreeMap rank V) (f : V → W) (r : α) :
    (m.mapValues f).find r = (m.find r).map fun e => (e.1, f e.2) := by
  unfold find mapValues
  rw [List.find?_map]
  rfl

@[simp] theorem get?_mapValues (m : BTreeMap rank V) (f : V → W)
    (r : α) : (m.mapValues f).get? r = (m.get? r).map f := by
  unfold get?
  rw [find_mapValues]
  cases m.find r <;> rfl

@[simp] theorem getKey?_mapValues (m : BTreeMap rank V) (f : V → W)
    (r : α) : (m.mapValues f).getKey? r = m.getKey? r := by
  unfold getKey?
  rw [find_mapValues]
  cases m.find r <;> rfl

theorem find_retain (m : BTreeMap rank V) (p : V → Bool) (r : α) :
    (m.retain p).find r = (m.find r).filter fun e => p e.2 := by
  cases hf : m.find r with
  | none =>
      rw [Option.filter_none]
      unfold find retain at *
      rw [List.find?_eq_none] at hf ⊢
      exact fun e he => hf e (List.mem_of_mem_filter he)
  | some e =>
      have hmem : e ∈ m.entries := List.mem_of_find?_eq_some hf
      have hr := rank_of_find hf
      by_cases hp : p e.2 = true
      · have hkeep : e ∈ (m.retain p).entries :=
          List.mem_filter.2 ⟨hmem, hp⟩
        rw [mem_entries_iff, hr] at hkeep
        rw [hkeep, Option.filter_some, if_pos hp]
      · -- the one entry of rank `r` is dropped, and there is no other
        rw [Option.filter_some, if_neg hp]
        unfold find
        rw [List.find?_eq_none]
        intro e' he' hr'
        obtain ⟨hmem', hp'⟩ := List.mem_filter.1 he'
        have hr' : rank e'.1 = r := by simpa using hr'
        have hfind' := mem_entries_iff.1 hmem'
        rw [hr', hf] at hfind'
        cases hfind'
        exact hp hp'

@[simp] theorem get?_retain (m : BTreeMap rank V) (p : V → Bool)
    (r : α) : (m.retain p).get? r = (m.get? r).filter p := by
  unfold get?
  rw [find_retain]
  cases m.find r with
  | none => rfl
  | some e => by_cases hp : p e.2 = true <;> simp [Option.filter, hp]

@[simp] theorem getKey?_retain (m : BTreeMap rank V) (p : V → Bool)
    (r : α) :
    (m.retain p).getKey? r
      = if (m.get? r).any p then m.getKey? r else none := by
  unfold getKey? get?
  rw [find_retain]
  cases m.find r with
  | none => rfl
  | some e => by_cases hp : p e.2 = true <;> simp [Option.filter, hp]

-- ======================================================= ordered traversal

/-- The ranks in use, in order. -/
def ranks (m : BTreeMap rank V) : List α := m.entries.map fun e => rank e.1

theorem ranks_sorted (m : BTreeMap rank V) :
    m.ranks.Pairwise (· < ·) := by
  unfold ranks
  rw [List.pairwise_map]
  exact m.sorted

theorem mem_ranks {m : BTreeMap rank V} {r : α} :
    r ∈ m.ranks ↔ (m.get? r).isSome := by
  unfold ranks
  rw [List.mem_map, Option.isSome_iff_exists]
  refine ⟨fun h => ?_, fun h => ?_⟩
  · obtain ⟨e, he, rfl⟩ := h
    exact ⟨e.2, get?_eq_some_iff.2 ⟨e.1, he, rfl⟩⟩
  · obtain ⟨v, hv⟩ := h
    obtain ⟨k, hk, hr⟩ := get?_eq_some_iff.1 hv
    exact ⟨(k, v), hk, hr⟩

/-- Two maps over the same ranks list them in the same order, so they
have as many entries. -/
theorem ranks_eq_of_forall_mem {m : BTreeMap rank V}
    {m' : BTreeMap rank W}
    (h : ∀ r, (m.get? r).isSome = (m'.get? r).isSome) :
    m.ranks = m'.ranks := by
  have hperm : m.ranks.Perm m'.ranks := by
    refine (List.perm_ext_iff_of_nodup
      (m.ranks_sorted.imp ne_of_lt) (m'.ranks_sorted.imp ne_of_lt)).2 ?_
    intro r
    rw [mem_ranks, mem_ranks, h]
  exact hperm.eq_of_pairwise (fun a b _ _ hab hba => absurd hba hab.asymm)
    m.ranks_sorted m'.ranks_sorted

/-- In a list whose ranks grow, a first hit is below every hit. -/
private theorem rank_le_of_find? {lt : κ × V → κ × V → Prop}
    {l : List (κ × V)} {p : κ × V → Bool} {e e' : κ × V}
    (hs : l.Pairwise lt) (h : l.find? p = some e) (he' : e' ∈ l)
    (hp' : p e' = true) : e = e' ∨ lt e e' := by
  obtain ⟨-, as, bs, hl, has⟩ := List.find?_eq_some_iff_append.1 h
  subst hl
  rcases List.mem_append.1 he' with he' | he'
  · exact absurd hp' (by simpa using has e' he')
  · rcases List.mem_cons.1 he' with he' | he'
    · exact Or.inl he'.symm
    · obtain ⟨-, htail, -⟩ := List.pairwise_append.1 hs
      exact Or.inr ((List.pairwise_cons.1 htail).1 e' he')

/-- The first entry to pass a test has the least rank that does. -/
theorem minOf_find? (m : BTreeMap rank V) (p : κ × V → Bool) :
    MinOf {r | ∃ e ∈ m.entries, p e = true ∧ rank e.1 = r}
      ((m.entries.find? p).map fun e => rank e.1) := by
  cases h : m.entries.find? p with
  | none =>
      show _ = ∅
      refine Set.eq_empty_of_forall_notMem fun r hr => ?_
      obtain ⟨e, he, hp, -⟩ := hr
      exact List.find?_eq_none.1 h e he hp
  | some e =>
      show IsLeast _ _
      refine ⟨⟨e, List.mem_of_find?_eq_some h, List.find?_some h, rfl⟩,
        fun r hr => ?_⟩
      obtain ⟨e', he', hp', hr'⟩ := hr
      subst hr'
      rcases rank_le_of_find? m.sorted h he' hp' with hee | hlt
      · rw [hee]
      · exact hlt.le

/-- The last entry to pass a test has the greatest rank that does. -/
theorem maxOf_find?_reverse (m : BTreeMap rank V) (p : κ × V → Bool) :
    MaxOf {r | ∃ e ∈ m.entries, p e = true ∧ rank e.1 = r}
      ((m.entries.reverse.find? p).map fun e => rank e.1) := by
  cases h : m.entries.reverse.find? p with
  | none =>
      show _ = ∅
      refine Set.eq_empty_of_forall_notMem fun r hr => ?_
      obtain ⟨e, he, hp, -⟩ := hr
      exact List.find?_eq_none.1 h e (List.mem_reverse.2 he) hp
  | some e =>
      show IsGreatest _ _
      have hmem := List.mem_reverse.1 (List.mem_of_find?_eq_some h)
      refine ⟨⟨e, hmem, List.find?_some h, rfl⟩, fun r hr => ?_⟩
      obtain ⟨e', he', hp', hr'⟩ := hr
      subst hr'
      have hs := List.pairwise_reverse.2 m.sorted
      rcases rank_le_of_find? hs h (List.mem_reverse.2 he') hp' with
        hee | hlt
      · rw [hee]
      · exact hlt.le

/-- What is least in a sorted list is its head. -/
theorem le_of_head? {m : BTreeMap rank V} {e e' : κ × V}
    (h : m.entries.head? = some e) (he' : e' ∈ m.entries) :
    rank e.1 ≤ rank e'.1 := by
  obtain ⟨l, hl⟩ := List.head?_eq_some_iff.1 h
  have hs := m.sorted
  rw [hl] at hs he'
  rcases List.mem_cons.1 he' with rfl | he'
  · exact le_rfl
  · exact ((List.pairwise_cons.1 hs).1 e' he').le

/-- What is greatest in a sorted list is its last entry. -/
theorem le_of_getLast? {m : BTreeMap rank V} {e e' : κ × V}
    (h : m.entries.getLast? = some e) (he' : e' ∈ m.entries) :
    rank e'.1 ≤ rank e.1 := by
  obtain ⟨l, hl⟩ := List.getLast?_eq_some_iff.1 h
  have hs := m.sorted
  rw [hl] at hs he'
  obtain ⟨-, -, hlast⟩ := List.pairwise_append.1 hs
  rcases List.mem_append.1 he' with he' | he'
  · exact (hlast e' he' e (List.mem_singleton_self e)).le
  · rw [List.mem_singleton.1 he']

end BTreeMap

end Wup
