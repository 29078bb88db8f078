/-
Hash maps and hash sets, and runs over independent components.

A hash map is Mathlib's `AList`: a list of entries with distinct keys,
whose order stands for the order an iteration yields them in. Nothing a
caller learns by key depends on that order; what an iteration yields is
stated for every order, since every order is some list. Where a map is
built by inserts and then iterated, the order is an `IterOrder`.

# Independent components

`foldl_component` is the projection lemma: a component that every step
either moves by the component's own step or leaves alone ends where its
own fold over the relevant messages ends; `foldl_frame` is the case of
no relevant message. `foldl_getD_eq` is the lazily created component, and
`perm_of_forall_filter_eq` the counting half of a feed argument: two
sequences with the same subsequence in every class are permutations of
each other, so whatever counts messages agrees.

# Reverse indexes

A map to hash sets files items under keys. `filed_file` and
`filed_unfile` say what one operation does to every key and item at once.
-/
import Mathlib

namespace Wup

variable {κ V M S T : Type*}

/-- A hash map: entries with distinct keys, in iteration order. -/
abbrev HashMap (κ V : Type*) := AList fun _ : κ => V

namespace HashMap

variable [DecidableEq κ]

/-- The values in iteration order. -/
def values (m : HashMap κ V) : List V := m.entries.map (·.2)

/-- Entry-style update: `f` sees the stored value, if any. -/
def upsert (m : HashMap κ V) (k : κ) (f : Option V → V) : HashMap κ V :=
  m.insert k (f (m.lookup k))

theorem lookup_insert' (m : HashMap κ V) (k k' : κ) (v : V) :
    AList.lookup k' (m.insert k v)
      = if k' = k then some v else m.lookup k' := by
  by_cases h : k' = k
  · subst h
    rw [AList.lookup_insert, if_pos rfl]
  · rw [AList.lookup_insert_ne h, if_neg h]

theorem lookup_erase' (m : HashMap κ V) (k k' : κ) :
    AList.lookup k' (m.erase k)
      = if k' = k then none else m.lookup k' := by
  by_cases h : k' = k
  · subst h
    rw [AList.lookup_erase, if_pos rfl]
  · rw [AList.lookup_erase_ne h, if_neg h]

@[simp] theorem lookup_upsert (m : HashMap κ V) (k k' : κ)
    (f : Option V → V) :
    AList.lookup k' (m.upsert k f)
      = if k' = k then some (f (m.lookup k)) else m.lookup k' :=
  lookup_insert' m k k' _

/-- A lookup is a search of the entries. -/
theorem lookup_eq_find? (m : HashMap κ V) (k : κ) :
    m.lookup k = (m.entries.find? fun e => e.1 = k).map (·.2) := by
  unfold AList.lookup
  generalize m.entries = l
  induction l with
  | nil => rfl
  | cons e l ih =>
      by_cases h : e.1 = k
      · obtain ⟨k', v⟩ := e
        subst h
        simp
      · rw [List.dlookup_cons_ne _ _ (Ne.symm h), ih,
          List.find?_cons_of_neg (by simpa using h)]

/-- A map is empty exactly when no key is present. -/
theorem entries_eq_nil_iff {m : HashMap κ V} :
    m.entries = [] ↔ ∀ k, m.lookup k = none := by
  refine ⟨fun h k => ?_, fun h => ?_⟩
  · have hm : m = ∅ := AList.ext h
    rw [hm, AList.lookup_empty]
  · rw [List.eq_nil_iff_forall_not_mem]
    rintro ⟨k, v⟩ he
    have hk := AList.mem_lookup_iff.2 he
    rw [h k] at hk
    cases hk

/-- The entry of a key, and the others. -/
theorem entries_perm {m : HashMap κ V} {k : κ} {v : V}
    (h : m.lookup k = some v) :
    m.entries.Perm (⟨k, v⟩ :: (m.erase k).entries) := by
  have hmem : (⟨k, v⟩ : Sigma fun _ : κ => V) ∈ m.entries :=
    AList.mem_lookup_iff.1 h
  obtain ⟨v', l₁, l₂, -, hentries, herase⟩ :=
    List.exists_of_kerase (List.mem_map_of_mem (f := Sigma.fst) hmem)
  have hmem' : (⟨k, v'⟩ : Sigma fun _ : κ => V) ∈ m.entries := by
    rw [hentries]
    simp
  have hv : v' = v := by
    have hk : m.lookup k = some v' := AList.mem_lookup_iff.2 hmem'
    rw [h] at hk
    exact (Option.some.inj hk).symm
  show m.entries.Perm (⟨k, v⟩ :: m.entries.kerase k)
  rw [herase, hentries, hv]
  exact List.perm_middle

/-- A map has as many entries as keys. -/
theorem ncard_keys (m : HashMap κ V) :
    Set.ncard {k | k ∈ m} = m.entries.length := by
  have hkeys : {k | k ∈ m} = (m.keys.toFinset : Set κ) := by
    ext k
    rw [List.coe_toFinset]
    exact Iff.rfl
  rw [hkeys, Set.ncard_coe_finset, List.toFinset_card_of_nodup m.keys_nodup]
  exact List.length_map _

theorem mem_values {m : HashMap κ V} {v : V} :
    v ∈ m.values ↔ ∃ k, m.lookup k = some v := by
  unfold values
  rw [List.mem_map]
  refine ⟨fun ⟨e, he, hv⟩ => ⟨e.1, ?_⟩, fun ⟨k, hk⟩ => ?_⟩
  · subst hv
    exact AList.mem_lookup_iff.2 he
  · exact ⟨⟨k, v⟩, AList.mem_lookup_iff.1 hk, rfl⟩

theorem values_perm {m : HashMap κ V} {k : κ} {v : V}
    (h : m.lookup k = some v) :
    m.values.Perm (v :: values (m.erase k)) :=
  (entries_perm h).map _

theorem values_insert (m : HashMap κ V) (k : κ) (v : V) :
    values (m.insert k v) = v :: values (m.erase k) := rfl

theorem erase_of_lookup_none {m : HashMap κ V} {k : κ}
    (h : m.lookup k = none) : m.erase k = m :=
  AList.ext (List.kerase_of_notMem_keys (AList.lookup_eq_none.1 h))

-- ========================================================= iteration order

/-- An order in which maps yield their entries: any. -/
structure IterOrder (κ V : Type*) where
  entries : HashMap κ V → List (κ × V)
  perm : ∀ m, (entries m).Perm (m.entries.map fun e => (e.1, e.2))

namespace IterOrder

/-- The order the entries are kept in. -/
def stored : IterOrder κ V := ⟨fun m => m.entries.map fun e => (e.1, e.2),
  fun _ => .refl _⟩

/-- A list of the entries is the order of some iteration. -/
theorem exists_entries {m : HashMap κ V} {es : List (κ × V)}
    (h : es.Perm (m.entries.map fun e => (e.1, e.2))) :
    ∃ order : IterOrder κ V, order.entries m = es := by
  classical
  refine ⟨⟨fun m' => if m' = m then es
    else stored.entries m', fun m' => ?_⟩, if_pos rfl⟩
  split
  · next hm => exact hm ▸ h
  · exact .refl _

variable (order : IterOrder κ V)

theorem mem_entries {m : HashMap κ V} {k : κ} {v : V} :
    (k, v) ∈ order.entries m ↔ m.lookup k = some v := by
  rw [(order.perm m).mem_iff, List.mem_map]
  refine ⟨fun h => ?_, fun h => ?_⟩
  · obtain ⟨e, he, hkv⟩ := h
    cases hkv
    exact AList.mem_lookup_iff.2 he
  · exact ⟨⟨k, v⟩, AList.mem_lookup_iff.1 h, rfl⟩

omit [DecidableEq κ] in
/-- No key is yielded twice. -/
theorem nodup_keys (m : HashMap κ V) :
    ((order.entries m).map (·.1)).Nodup := by
  refine ((order.perm m).map _).nodup_iff.2 ?_
  rw [List.map_map]
  exact m.keys_nodup

/-- A list of the keys is the order of some iteration. -/
theorem exists_keys {m : HashMap κ V} {ks : List κ} (h : ks.Perm m.keys) :
    ∃ order : IterOrder κ V, (order.entries m).map (·.1) = ks := by
  classical
  let entry (k : κ) : Option (κ × V) := (m.lookup k).map fun v => (k, v)
  have hstored : m.keys.filterMap entry = stored.entries m := by
    have hkeys : m.keys = m.entries.map (·.1) := rfl
    rw [hkeys, List.filterMap_map]
    show _ = m.entries.map fun e => (e.1, e.2)
    rw [← List.filterMap_eq_map]
    refine List.filterMap_congr fun e he => ?_
    show (m.lookup e.1).map _ = _
    rw [AList.mem_lookup_iff.2 he]
    rfl
  have hperm : (ks.filterMap entry).Perm
      (m.entries.map fun e => (e.1, e.2)) :=
    (h.filterMap entry).trans (.of_eq hstored)
  obtain ⟨order, horder⟩ := exists_entries hperm
  refine ⟨order, ?_⟩
  rw [horder, List.map_filterMap]
  refine (List.filterMap_congr fun k hk => ?_).trans List.filterMap_some
  obtain ⟨v, hv⟩ := Option.isSome_iff_exists.1
    (AList.lookup_isSome.2 (h.mem_iff.1 hk))
  show ((m.lookup k).map fun v => (k, v)).map _ = _
  rw [hv]
  rfl

/-- Of one key there is its entry, if any. -/
theorem filter_entries (m : HashMap κ V) (k : κ) :
    ((order.entries m).filter fun e => e.1 = k)
      = ((m.lookup k).map fun v => (k, v)).toList := by
  have hnodup := (order.nodup_keys m).of_map.filter
    (fun e => decide (e.1 = k))
  have hmem : ∀ e, e ∈ (order.entries m).filter (fun e => e.1 = k)
      ↔ e ∈ ((m.lookup k).map fun v => (k, v)).toList := by
    rintro ⟨k', v⟩
    rw [List.mem_filter, mem_entries, Option.mem_toList,
      Option.map_eq_some_iff, decide_eq_true_eq]
    refine ⟨fun h => ?_, fun h => ?_⟩
    · obtain ⟨hv, rfl⟩ := h
      exact ⟨v, hv, rfl⟩
    · obtain ⟨v', hv, he⟩ := h
      cases he
      exact ⟨hv, rfl⟩
  cases hk : m.lookup k with
  | none =>
      rw [hk] at hmem
      exact List.eq_nil_iff_forall_not_mem.2 fun e he =>
        List.not_mem_nil ((hmem e).1 he)
  | some v =>
      rw [hk] at hmem
      exact List.perm_singleton.1
        ((List.perm_ext_iff_of_nodup hnodup (List.nodup_singleton _)).2
          hmem)

end IterOrder

-- ============================================================= nested maps

variable {κ' : Type*}

/-- The entries of a map of maps, under the pair of their keys. -/
def flatten (m : HashMap κ (HashMap κ' V)) : List ((κ × κ') × V) :=
  m.entries.flatMap fun e => e.2.entries.map fun e' => ((e.1, e'.1), e'.2)

theorem mem_flatten [DecidableEq κ'] {m : HashMap κ (HashMap κ' V)}
    {k : κ} {k' : κ'} {v : V} :
    ((k, k'), v) ∈ flatten m
      ↔ (m.lookup k).bind (fun inner => inner.lookup k') = some v := by
  unfold flatten
  rw [List.mem_flatMap, Option.bind_eq_some_iff]
  refine ⟨fun h => ?_, fun h => ?_⟩
  · obtain ⟨⟨k₁, inner⟩, he, h⟩ := h
    obtain ⟨⟨k₂, w⟩, he', hkv⟩ := List.mem_map.1 h
    cases hkv
    exact ⟨inner, AList.mem_lookup_iff.2 he, AList.mem_lookup_iff.2 he'⟩
  · obtain ⟨inner, hm, hv⟩ := h
    exact ⟨⟨k, inner⟩, AList.mem_lookup_iff.1 hm,
      List.mem_map.2 ⟨⟨k', v⟩, AList.mem_lookup_iff.1 hv, rfl⟩⟩

omit [DecidableEq κ] in
/-- No pair of keys occurs twice. -/
theorem nodup_flatten_keys (m : HashMap κ (HashMap κ' V)) :
    ((flatten m).map (·.1)).Nodup := by
  unfold flatten
  rw [List.map_flatMap, List.nodup_flatMap]
  constructor
  · intro e _
    rw [List.map_map]
    -- within one inner map the second components differ
    refine List.Nodup.of_map Prod.snd ?_
    rw [List.map_map]
    exact e.2.keys_nodup
  · have hkeys : m.entries.Pairwise fun e₁ e₂ => e₁.1 ≠ e₂.1 :=
      List.pairwise_map.1 m.keys_nodup
    refine hkeys.imp fun hne => ?_
    intro p hp₁ hp₂
    obtain ⟨⟨q₁, hq₁⟩, h₁⟩ := List.mem_map.1 hp₁
    obtain ⟨⟨q₂, hq₂⟩, h₂⟩ := List.mem_map.1 hp₂
    obtain ⟨a₁, -, e₁⟩ := List.mem_map.1 h₁.1
    obtain ⟨a₂, -, e₂⟩ := List.mem_map.1 h₂.1
    cases e₁
    cases e₂
    exact hne (congrArg Prod.fst (h₁.2.trans h₂.2.symm))

end HashMap

-- ============================================================== projection

/-- A component that each step either moves by its own step or leaves
alone ends where its own fold over the relevant messages ends. -/
theorem foldl_component (π : S → T) (step : S → M → S) (step' : T → M → T)
    (p : M → Bool)
    (h : ∀ s x, π (step s x) = if p x then step' (π s) x else π s)
    (s : S) (xs : List M) :
    π (xs.foldl step s) = (xs.filter p).foldl step' (π s) := by
  induction xs generalizing s with
  | nil => rfl
  | cons x xs ih =>
      rw [List.foldl_cons, ih, h]
      cases hp : p x with
      | true => rw [List.filter_cons_of_pos hp, List.foldl_cons, if_pos rfl]
      | false =>
          rw [List.filter_cons_of_neg (by simp [hp]), if_neg (by simp)]

/-- A view that no step of the run moves is not moved by the run. -/
theorem foldl_frame (π : S → T) {step : S → M → S} {xs : List M}
    (h : ∀ s, ∀ x ∈ xs, π (step s x) = π s) (s : S) :
    π (xs.foldl step s) = π s := by
  induction xs generalizing s with
  | nil => rfl
  | cons x xs ih =>
      rw [List.foldl_cons,
        ih fun s y hy => h s y (List.mem_cons_of_mem _ hy),
        h s x (List.mem_cons_self ..)]

/-- A lazily created cell, once its first message came, is the plain
fold from what it was, or from the initial cell. -/
theorem foldl_getD_eq (init : S) (step : S → M → S) (o : Option S)
    (xs : List M) :
    xs.foldl (fun o x => some (step (o.getD init) x)) o
      = if xs = [] then o else some (xs.foldl step (o.getD init)) := by
  have hsome : ∀ (xs : List M) (s : S),
      xs.foldl (fun o x => some (step (o.getD init) x)) (some s)
        = some (xs.foldl step s) := by
    intro xs
    induction xs with
    | nil => intro s; rfl
    | cons x xs ih => intro s; exact ih (step s x)
  cases xs with
  | nil => rfl
  | cons x xs => exact hsome xs (step (o.getD init) x)

/-- Two sequences with the same subsequence in every class are
permutations of each other. -/
theorem perm_of_forall_filter_eq [DecidableEq M] [DecidableEq κ]
    (cls : M → κ) {xs ys : List M}
    (h : ∀ c, xs.filter (fun x => cls x = c)
      = ys.filter (fun x => cls x = c)) :
    xs.Perm ys := by
  rw [List.perm_iff_count]
  intro a
  have hcount : ∀ zs : List M,
      zs.count a = (zs.filter fun x => cls x = cls a).count a := by
    intro zs
    rw [List.count_filter (by simp)]
  rw [hcount xs, hcount ys, h]

-- =============================================================== hash sets

/-- A hash set: distinct items, in iteration order. -/
structure HashSet (κ : Type*) where
  items : List κ
  nodup : items.Nodup
deriving DecidableEq

namespace HashSet

instance : Membership κ (HashSet κ) where
  mem s a := a ∈ s.items

/-- The empty set. -/
def empty : HashSet κ := ⟨[], .nil⟩

theorem mem_items {a : κ} {s : HashSet κ} : a ∈ s.items ↔ a ∈ s := Iff.rfl

@[simp] theorem not_mem_empty (a : κ) : ¬ a ∈ (empty : HashSet κ) :=
  List.not_mem_nil

variable [DecidableEq κ]

instance (a : κ) (s : HashSet κ) : Decidable (a ∈ s) :=
  inferInstanceAs (Decidable (a ∈ s.items))

/-- Add an item; a set that holds it already is unchanged. -/
def insert (s : HashSet κ) (a : κ) : HashSet κ :=
  ⟨s.items.insert a, s.nodup.insert⟩

/-- Drop an item. -/
def remove (s : HashSet κ) (a : κ) : HashSet κ :=
  ⟨s.items.erase a, s.nodup.erase a⟩

@[simp] theorem mem_insert {a b : κ} {s : HashSet κ} :
    a ∈ s.insert b ↔ a = b ∨ a ∈ s :=
  List.mem_insert_iff

@[simp] theorem mem_remove {a b : κ} {s : HashSet κ} :
    a ∈ s.remove b ↔ a ≠ b ∧ a ∈ s :=
  s.nodup.mem_erase_iff

theorem insert_of_mem {a : κ} {s : HashSet κ} (h : a ∈ s) :
    s.insert a = s := by
  obtain ⟨items, nodup⟩ := s
  simp only [insert, List.insert_of_mem (mem_items.2 h)]

theorem remove_of_not_mem {a : κ} {s : HashSet κ} (h : ¬ a ∈ s) :
    s.remove a = s := by
  obtain ⟨items, nodup⟩ := s
  simp only [remove, List.erase_of_not_mem fun hm => h (mem_items.1 hm)]

/-- Add every item of a list. -/
def extend (s : HashSet κ) (xs : List κ) : HashSet κ := xs.foldl insert s

@[simp] theorem mem_extend {a : κ} {s : HashSet κ} {xs : List κ} :
    a ∈ s.extend xs ↔ a ∈ s ∨ a ∈ xs := by
  induction xs generalizing s with
  | nil => simp [extend]
  | cons x xs ih =>
      show a ∈ (s.insert x).extend xs ↔ _
      rw [ih, mem_insert, List.mem_cons]
      tauto

end HashSet

-- ========================================================= reverse indexes

namespace HashMap

variable [DecidableEq κ] [DecidableEq V]

/-- `v` is filed under `k`. -/
def Filed (m : HashMap κ (HashSet V)) (k : κ) (v : V) : Prop :=
  ∃ s, m.lookup k = some s ∧ v ∈ s

/-- File an item under a key. -/
def file (m : HashMap κ (HashSet V)) (k : κ) (v : V) :
    HashMap κ (HashSet V) :=
  m.upsert k fun s => (s.getD .empty).insert v

/-- Take an item from under a key; the key stays. -/
def unfile (m : HashMap κ (HashSet V)) (k : κ) (v : V) :
    HashMap κ (HashSet V) :=
  match m.lookup k with
  | some s => m.insert k (s.remove v)
  | none => m

omit [DecidableEq V] in
theorem filed_iff_getD {m : HashMap κ (HashSet V)} {k : κ} {v : V} :
    m.Filed k v ↔ v ∈ (m.lookup k).getD .empty := by
  unfold Filed
  cases m.lookup k with
  | none => simp
  | some s => simp

theorem filed_file {m : HashMap κ (HashSet V)} {k k' : κ} {v v' : V} :
    (m.file k v).Filed k' v' ↔ (k' = k ∧ v' = v) ∨ m.Filed k' v' := by
  rw [filed_iff_getD, filed_iff_getD, file, lookup_upsert]
  by_cases hk : k' = k
  · subst hk
    simp
  · simp [hk]

theorem filed_unfile {m : HashMap κ (HashSet V)} {k k' : κ} {v v' : V} :
    (m.unfile k v).Filed k' v' ↔ ¬(k' = k ∧ v' = v) ∧ m.Filed k' v' := by
  rw [filed_iff_getD, filed_iff_getD, unfile]
  by_cases hk : k' = k
  · subst hk
    cases h : m.lookup k' with
    | none => simp [h]
    | some s => simp
  · cases m.lookup k with
    | none => simp [hk]
    | some s => simp [hk]

theorem mem_file {m : HashMap κ (HashSet V)} {k k' : κ} {v : V} :
    k' ∈ m.file k v ↔ k' = k ∨ k' ∈ m :=
  AList.mem_insert m

/-- A key stays, also when its last item is taken. -/
theorem mem_unfile {m : HashMap κ (HashSet V)} {k k' : κ} {v : V} :
    k' ∈ m.unfile k v ↔ k' ∈ m := by
  unfold unfile
  cases hk : m.lookup k with
  | none => exact Iff.rfl
  | some s =>
      refine (AList.mem_insert m).trans (or_iff_right_of_imp fun he => ?_)
      rw [he, ← AList.lookup_isSome, hk]
      rfl

/-- Filing what is filed changes no lookup. -/
theorem lookup_file_of_filed {m : HashMap κ (HashSet V)} {k : κ} {v : V}
    (h : m.Filed k v) (k' : κ) : (m.file k v).lookup k' = m.lookup k' := by
  obtain ⟨s, hs, hv⟩ := h
  rw [file, lookup_upsert]
  by_cases hk : k' = k
  · rw [if_pos hk, hk, hs, Option.getD_some, HashSet.insert_of_mem hv]
  · rw [if_neg hk]

/-- Nor does taking out what is not filed. -/
theorem lookup_unfile_of_not_filed {m : HashMap κ (HashSet V)} {k : κ}
    {v : V} (h : ¬ m.Filed k v) (k' : κ) :
    (m.unfile k v).lookup k' = m.lookup k' := by
  unfold unfile
  cases hs : m.lookup k with
  | none => rfl
  | some s =>
      have hv : ¬ v ∈ s := fun hv => h ⟨s, hs, hv⟩
      show AList.lookup k' (m.insert k (s.remove v)) = _
      rw [HashSet.remove_of_not_mem hv]
      by_cases hk : k' = k
      · rw [hk, AList.lookup_insert, hs]
      · rw [AList.lookup_insert_ne hk]

omit [DecidableEq V] in
theorem Filed.mem {m : HashMap κ (HashSet V)} {k : κ} {v : V}
    (h : m.Filed k v) : k ∈ m := by
  obtain ⟨s, hs, -⟩ := h
  rw [← AList.lookup_isSome, hs]
  rfl

end HashMap

end Wup
