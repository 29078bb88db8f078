/-
Subscription subjects (`subscription.rs`): dot-separated segments with
NATS-style wildcards.

`*` stands for one segment and `>` for the rest, both only as a segment of
their own: inside a longer segment they are ordinary characters. A pattern
without either character matches the subject it spells and no other
(`matchesSubject_exact`), because splitting forgets nothing.
-/
import Mathlib

namespace Wup.Gateway

/-- `split('.')`. -/
def splitDots (subject : String) : List String :=
  (subject.toList.splitOn '.').map String.ofList

/-- Whether a pattern contains a wildcard character. -/
def isWildcardPattern (pattern : String) : Bool :=
  pattern.toList.contains '*' || pattern.toList.contains '>'

/-- Match a pattern against a subject, segment by segment. -/
def matchesParts : List String → List String → Bool
  | p :: patternParts, s :: subjectParts =>
      if p = ">" then true
      else if p = "*" then matchesParts patternParts subjectParts
      else if p = s then matchesParts patternParts subjectParts
      else false
  | [], [] => true
  | _, _ => false

/-- The loop of the match, from a pattern index and a subject index on;
`matchesParts` is what it computes (`matchesFrom_eq`). -/
def matchesFrom (patternParts subjectParts : List String) (pi si : Nat) :
    Bool :=
  if h : pi < patternParts.length ∧ si < subjectParts.length then
    let p := patternParts[pi]
    if p = ">" then decide (si < subjectParts.length)
    else if p = "*" then
      matchesFrom patternParts subjectParts (pi + 1) (si + 1)
    else if p = subjectParts[si] then
      matchesFrom patternParts subjectParts (pi + 1) (si + 1)
    else false
  else decide (pi = patternParts.length ∧ si = subjectParts.length)
termination_by patternParts.length - pi

/-- What is left of the segments is what the loop still has to match. -/
theorem matchesFrom_eq {patternParts subjectParts : List String}
    {pi si : Nat} (hp : pi ≤ patternParts.length)
    (hs : si ≤ subjectParts.length) :
    matchesFrom patternParts subjectParts pi si
      = matchesParts (patternParts.drop pi) (subjectParts.drop si) := by
  fun_induction matchesFrom patternParts subjectParts pi si with
  | case1 pi si h p hrest =>
      rw [List.drop_eq_getElem_cons h.1, List.drop_eq_getElem_cons h.2,
        matchesParts, if_pos hrest, decide_eq_true h.2]
  | case2 pi si h p hrest hstar ih =>
      rw [List.drop_eq_getElem_cons h.1, List.drop_eq_getElem_cons h.2,
        matchesParts, if_neg hrest, if_pos hstar]
      exact ih h.1 h.2
  | case3 pi si h p hrest hstar hsame ih =>
      rw [List.drop_eq_getElem_cons h.1, List.drop_eq_getElem_cons h.2,
        matchesParts, if_neg hrest, if_neg hstar, if_pos hsame]
      exact ih h.1 h.2
  | case4 pi si h p hrest hstar hother =>
      rw [List.drop_eq_getElem_cons h.1, List.drop_eq_getElem_cons h.2,
        matchesParts, if_neg hrest, if_neg hstar, if_neg hother]
  | case5 pi si h =>
      -- one of the two is used up
      by_cases hpi : pi = patternParts.length
      · rw [hpi, List.drop_length]
        by_cases hsi : si = subjectParts.length
        · rw [hsi, List.drop_length]
          simp [matchesParts]
        · rw [List.drop_eq_getElem_cons (by omega)]
          simp [hsi, matchesParts]
      · have hsi : si = subjectParts.length := by omega
        rw [hsi, List.drop_length, List.drop_eq_getElem_cons (by omega)]
        simp [hpi, matchesParts]

/-- Check if a subscription pattern matches a subject. -/
def matchesSubject (pattern : String) (subjectParts : List String) : Bool :=
  matchesParts (splitDots pattern) subjectParts

/-- Build a subject from components (2-level hierarchy). -/
def buildSubject (marketId assetId : String) : String :=
  marketId ++ "." ++ assetId

/-- Validate a subscription pattern: an error message if invalid. -/
def validatePattern (pattern : String) : Option String :=
  if pattern.isEmpty then some "Empty pattern"
  else
    let parts := splitDots pattern
    parts.zipIdx.findSome? fun e =>
      if e.1 = ">" ∧ e.2 ≠ parts.length - 1 then
        some "> wildcard can only be at the end"
      else if e.1.isEmpty then some "Empty segment in pattern"
      else none

-- =============================================================== splitting

theorem splitDots_injective : Function.Injective splitDots := by
  intro s t h
  have hsplit : s.toList.splitOn '.' = t.toList.splitOn '.' :=
    List.map_injective_iff.2 (fun _ _ => String.ofList_inj.1) h
  have hjoin : ∀ u : String, ['.'].intercalate (u.toList.splitOn '.')
      = u.toList := fun u => List.intercalate_splitOn '.'
  have hlist : s.toList = t.toList := by
    rw [← hjoin s, hsplit, hjoin t]
  exact String.toList_inj.1 hlist

private theorem mem_intercalate_of_mem {α : Type*} {sep l : List α}
    {ls : List (List α)} {c : α} (hl : l ∈ ls) (hc : c ∈ l) :
    c ∈ sep.intercalate ls := by
  induction ls with
  | nil => cases hl
  | cons l' ls ih =>
      cases ls with
      | nil =>
          obtain rfl := List.mem_singleton.1 hl
          rwa [List.intercalate_singleton]
      | cons l'' ls =>
          rw [List.intercalate_cons_cons]
          rcases List.mem_cons.1 hl with rfl | hl
          · exact List.mem_append_left _ (List.mem_append_left _ hc)
          · exact List.mem_append_right _ (ih hl)

/-- The characters of a segment are characters of the subject. -/
theorem mem_of_mem_splitDots {subject part : String} {c : Char}
    (hpart : part ∈ splitDots subject) (hc : c ∈ part.toList) :
    c ∈ subject.toList := by
  obtain ⟨l, hl, rfl⟩ := List.mem_map.1 hpart
  rw [String.toList_ofList] at hc
  have hmem : c ∈ ['.'].intercalate (subject.toList.splitOn '.') :=
    mem_intercalate_of_mem hl hc
  rwa [List.intercalate_splitOn] at hmem

theorem splitDots_ne_nil (subject : String) : splitDots subject ≠ [] := by
  unfold splitDots
  rw [Ne, List.map_eq_nil_iff]
  exact List.splitOn_ne_nil '.' subject.toList

/-- Built from two ids, a subject has the segments of both. -/
theorem splitDots_buildSubject (marketId assetId : String) :
    splitDots (buildSubject marketId assetId)
      = splitDots marketId ++ splitDots assetId := by
  have hlist : (buildSubject marketId assetId).toList
      = marketId.toList ++ '.' :: assetId.toList := by
    simp [buildSubject]
  unfold splitDots
  rw [hlist, List.splitOn_append_cons_self, List.map_append]

/-- A text without a dot is one segment. -/
theorem splitDots_eq_singleton {s : String} (h : '.' ∉ s.toList) :
    splitDots s = [s] := by
  unfold splitDots
  rw [List.splitOn_eq_singleton h, List.map_singleton, String.ofList_toList]

private theorem not_mem_of_mem_splitOn {l part : List Char}
    (h : part ∈ l.splitOn '.') : '.' ∉ part := by
  induction l generalizing part with
  | nil =>
      rw [List.splitOn_nil, List.mem_singleton] at h
      rw [h]
      exact List.not_mem_nil
  | cons c l ih =>
      rw [List.splitOn_cons_eq_if_modifyHead] at h
      split at h
      · rcases List.mem_cons.1 h with rfl | h
        · exact List.not_mem_nil
        · exact ih h
      · next hc =>
          obtain ⟨head, tail, hsplit⟩ :=
            List.exists_cons_of_ne_nil (List.splitOn_ne_nil '.' l)
          rw [hsplit] at h ih
          rcases List.mem_cons.1 h with rfl | h
          · intro hmem
            rcases List.mem_cons.1 hmem with rfl | hmem
            · exact hc (beq_self_eq_true _)
            · exact ih (List.mem_cons_self ..) hmem
          · exact ih (List.mem_cons_of_mem _ h)

/-- A segment contains no dot. -/
theorem splitDots_of_mem {subject part : String}
    (h : part ∈ splitDots subject) :
    '.' ∉ part.toList ∧ splitDots part = [part] := by
  obtain ⟨l, hl, rfl⟩ := List.mem_map.1 h
  have hdot : '.' ∉ (String.ofList l).toList := by
    rw [String.toList_ofList]
    exact not_mem_of_mem_splitOn hl
  exact ⟨hdot, splitDots_eq_singleton hdot⟩

-- ========================================================== exact patterns

/-- Without wildcard segments matching is equality. -/
theorem matchesParts_exact {patternParts subjectParts : List String}
    (h : ∀ p ∈ patternParts, p ≠ ">" ∧ p ≠ "*") :
    matchesParts patternParts subjectParts = true
      ↔ patternParts = subjectParts := by
  induction patternParts generalizing subjectParts with
  | nil => cases subjectParts <;> simp [matchesParts]
  | cons p patternParts ih =>
      cases subjectParts with
      | nil => simp [matchesParts]
      | cons s subjectParts =>
          have hp := h p (List.mem_cons_self ..)
          have hrest : matchesParts patternParts subjectParts = true
              ↔ patternParts = subjectParts :=
            ih fun q hq => h q (List.mem_cons_of_mem _ hq)
          rw [List.cons.injEq, ← hrest]
          simp [matchesParts, hp.1, hp.2]

/-- A pattern without wildcard characters has no wildcard segment. -/
theorem segments_plain {pattern : String}
    (h : isWildcardPattern pattern = false) :
    ∀ p ∈ splitDots pattern, p ≠ ">" ∧ p ≠ "*" := by
  rw [isWildcardPattern, Bool.or_eq_false_iff] at h
  obtain ⟨hstar, hrest⟩ := h
  intro p hp
  refine ⟨fun hgt => ?_, fun hst => ?_⟩
  · subst hgt
    have hmem := mem_of_mem_splitDots (c := '>') hp (by simp)
    rw [← List.contains_iff_mem, hrest] at hmem
    cases hmem
  · subst hst
    have hmem := mem_of_mem_splitDots (c := '*') hp (by simp)
    rw [← List.contains_iff_mem, hstar] at hmem
    cases hmem

/-- A pattern without wildcard characters matches itself only. -/
theorem matchesSubject_exact {pattern : String}
    (h : isWildcardPattern pattern = false) (subject : String) :
    matchesSubject pattern (splitDots subject) = true
      ↔ pattern = subject := by
  rw [matchesSubject, matchesParts_exact (segments_plain h),
    splitDots_injective.eq_iff]

end Wup.Gateway
