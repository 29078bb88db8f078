/-
The pattern language of subscriptions.

What a pattern is, and what it matches, is said of segments: a pattern is
segments joined by dots (`WellFormed`), and matching is a relation of two
lists of segments (`Matches`). The code splits texts and walks them with
two indices. Splitting undoes joining, as no segment has a dot
(`splitDots_join`); the walk from any pair of indices matches what is
left of both lists (`matchesFrom_eq`), and that, over the segments of a
pattern, is the relation (`matchesParts_iff`).
-/
import Wup.Gateway.Subject

namespace Wup.Gateway

-- ============================================================ the language

/-- Segments a pattern may have: none is empty or has a dot, and `>`
stands at most at the end. -/
structure IsPattern (parts : List String) : Prop where
  nonempty : parts ≠ []
  part : ∀ part ∈ parts, part ≠ "" ∧ '.' ∉ part.toList
  rest : ">" ∉ parts.dropLast

/-- A dot-separated sequence of such segments. -/
def WellFormed (pattern : String) : Prop :=
  ∃ parts, IsPattern parts ∧ pattern = ".".intercalate parts

/-- A pattern's segments match a subject's. -/
inductive Matches : List String → List String → Prop
  | empty : Matches [] []
  /-- `*` matches any one segment. -/
  | any {ps ss : List String} (s : String) (rests : Matches ps ss) :
      Matches ("*" :: ps) (s :: ss)
  /-- Any other segment except `>` matches itself. -/
  | same {ps ss : List String} {p : String} (star : p ≠ "*")
      (rest : p ≠ ">") (rests : Matches ps ss) :
      Matches (p :: ps) (p :: ss)
  /-- A final `>` matches what is left, if anything is. -/
  | rest {ss : List String} (left : ss ≠ []) : Matches [">"] ss

-- =============================================================== splitting

/-- Joined segments split into what they were. -/
theorem splitDots_join {parts : List String} (hne : parts ≠ [])
    (hdot : ∀ part ∈ parts, '.' ∉ part.toList) :
    splitDots (".".intercalate parts) = parts := by
  have hchars : ∀ chars ∈ parts.map String.toList, '.' ∉ chars := by
    intro chars hmem
    obtain ⟨part, hpart, rfl⟩ := List.mem_map.1 hmem
    exact hdot part hpart
  unfold splitDots
  rw [String.toList_intercalate]
  show (List.splitOn '.' (['.'].intercalate _)).map _ = _
  rw [List.splitOn_intercalate '.' hchars (by simpa using hne),
    List.map_map]
  simp

/-- And the segments of a text join to it. -/
theorem join_splitDots (pattern : String) :
    ".".intercalate (splitDots pattern) = pattern := by
  refine splitDots_injective (splitDots_join (splitDots_ne_nil pattern) ?_)
  exact fun part hpart => (splitDots_of_mem hpart).1

theorem wellFormed_iff {pattern : String} :
    WellFormed pattern ↔ IsPattern (splitDots pattern) := by
  refine ⟨fun h => ?_, fun h => ⟨_, h, (join_splitDots pattern).symm⟩⟩
  obtain ⟨parts, hparts, rfl⟩ := h
  rwa [splitDots_join hparts.nonempty fun p hp => (hparts.part p hp).2]

-- ============================================================== validation

/-- Somewhere before the last element. -/
theorem mem_dropLast_iff {α : Type*} {x : α} {xs : List α} :
    x ∈ xs.dropLast ↔ ∃ i, xs[i]? = some x ∧ i < xs.length - 1 := by
  rw [List.mem_iff_getElem?]
  refine exists_congr fun i => ?_
  rw [List.getElem?_dropLast]
  split
  · next h => simp [h]
  · next h => simp [h]

/-- The loop of the validation finds nothing exactly in the segments of a
pattern. -/
theorem validateParts_iff {parts : List String} (hne : parts ≠ [])
    (hdot : ∀ part ∈ parts, '.' ∉ part.toList) :
    (∀ e ∈ parts.zipIdx, ¬ (e.1 = ">" ∧ e.2 ≠ parts.length - 1)
        ∧ e.1.isEmpty = false)
      ↔ IsPattern parts := by
  have hempty : ∀ part : String, part.isEmpty = false ↔ part ≠ "" := by
    intro part
    rw [← Bool.not_eq_true, String.isEmpty_iff]
  refine ⟨fun h => ⟨hne, fun part hpart => ⟨?_, hdot part hpart⟩, ?_⟩,
    fun h e he => ?_⟩
  · obtain ⟨i, hi⟩ := List.mem_iff_getElem?.1 hpart
    exact (hempty part).1
      (h (part, i) (List.mk_mem_zipIdx_iff_getElem?.2 hi)).2
  · intro hmem
    obtain ⟨i, hi, hlt⟩ := mem_dropLast_iff.1 hmem
    exact (h (">", i) (List.mk_mem_zipIdx_iff_getElem?.2 hi)).1
      ⟨rfl, hlt.ne⟩
  · obtain ⟨part, i⟩ := e
    have hi := List.mk_mem_zipIdx_iff_getElem?.1 he
    refine ⟨fun hbad => h.rest (mem_dropLast_iff.2 ⟨i, ?_, ?_⟩), ?_⟩
    · have hgt : part = ">" := hbad.1
      rw [hi, hgt]
    · have hlt : i < parts.length := (List.getElem?_eq_some_iff.1 hi).1
      have hlast : i ≠ parts.length - 1 := hbad.2
      omega
    · exact (hempty part).2 (h.part part (List.mem_iff_getElem?.2 ⟨i, hi⟩)).1

/-- A pattern is valid exactly when it is dot-separated segments, none
empty, with `>` at most at the end. -/
theorem validatePattern_eq_none_iff (pattern : String) :
    validatePattern pattern = none ↔ WellFormed pattern := by
  have hdot : ∀ part ∈ splitDots pattern, '.' ∉ part.toList :=
    fun part hpart => (splitDots_of_mem hpart).1
  rw [wellFormed_iff, ← validateParts_iff (splitDots_ne_nil pattern) hdot]
  unfold validatePattern
  split
  · next hempty =>
      -- the empty text is one empty segment
      rw [String.isEmpty_iff] at hempty
      subst hempty
      refine iff_of_false (by simp) fun h => ?_
      have hsplit : splitDots "" = [""] := splitDots_eq_singleton (by simp)
      rw [hsplit] at h
      exact Bool.noConfusion (h ("", 0) (List.mem_singleton_self _)).2
  · rw [List.findSome?_eq_none_iff]
    refine forall₂_congr fun e _ => ?_
    by_cases hrest : e.1 = ">" ∧ e.2 ≠ (splitDots pattern).length - 1
    · simp [hrest]
    · rw [if_neg hrest]
      cases e.1.isEmpty with
      | true => simp
      | false => simp [hrest]

-- ================================================================ matching

/-- Over the segments of a pattern, the match is the relation. -/
theorem matchesParts_iff {patternParts subjectParts : List String}
    (h : ">" ∉ patternParts.dropLast) :
    matchesParts patternParts subjectParts = true
      ↔ Matches patternParts subjectParts := by
  induction patternParts generalizing subjectParts with
  | nil =>
      cases subjectParts with
      | nil => exact iff_of_true rfl .empty
      | cons s ss => exact iff_of_false Bool.false_ne_true nofun
  | cons p ps ih =>
      have htail : ">" ∉ ps.dropLast := by
        intro hmem
        cases ps with
        | nil => cases hmem
        | cons q qs => exact h (List.mem_cons_of_mem _ hmem)
      cases subjectParts with
      | nil =>
          refine iff_of_false Bool.false_ne_true fun hm => ?_
          cases hm with
          | rest left => exact left rfl
      | cons s ss =>
          rw [matchesParts]
          split
          · next hrest =>
              -- a `>` is the last segment
              subst hrest
              cases ps with
              | nil => exact iff_of_true rfl (.rest (List.cons_ne_nil s ss))
              | cons q qs => exact absurd (List.mem_cons_self ..) h
          · next hrest =>
              split
              · next hstar =>
                  rw [ih htail]
                  refine ⟨fun hm => hstar ▸ .any s hm, fun hm => ?_⟩
                  cases hm with
                  | any s rests => exact rests
                  | same star rest rests => exact rests
                  | rest left => exact absurd rfl hrest
              · next hstar =>
                  split
                  · next hsame =>
                      subst hsame
                      rw [ih htail]
                      refine ⟨fun hm => .same hstar hrest hm, fun hm => ?_⟩
                      cases hm with
                      | any s rests => exact rests
                      | same star rest rests => exact rests
                      | rest left => exact absurd rfl hrest
                  · next hother =>
                      refine iff_of_false Bool.false_ne_true fun hm => ?_
                      cases hm with
                      | any s rests => exact hstar rfl
                      | same star rest rests => exact hother rfl
                      | rest left => exact hrest rfl

/-- What `validate_pattern` lets through are the patterns, and these match
by the relation of their segments: the loop of the match, from its start,
over the segments of any subject. Without wildcard segments a pattern
matches the subject it spells. -/
theorem pattern_language :
    (∀ pattern, validatePattern pattern = none ↔ WellFormed pattern)
      ∧ ∀ pattern, WellFormed pattern → ∀ subject,
        (matchesSubject pattern (splitDots subject) = true
            ↔ Matches (splitDots pattern) (splitDots subject))
          ∧ matchesFrom (splitDots pattern) (splitDots subject) 0 0
            = matchesSubject pattern (splitDots subject)
          ∧ ("*" ∉ splitDots pattern → ">" ∉ splitDots pattern →
            (matchesSubject pattern (splitDots subject) = true
              ↔ pattern = subject)) := by
  refine ⟨validatePattern_eq_none_iff, fun pattern hpattern subject => ?_⟩
  refine ⟨matchesParts_iff (wellFormed_iff.1 hpattern).rest, ?_,
    fun hstar hrest => ?_⟩
  · rw [matchesFrom_eq (Nat.zero_le _) (Nat.zero_le _)]
    rfl
  · have hplain : ∀ p ∈ splitDots pattern, p ≠ ">" ∧ p ≠ "*" :=
      fun p hp => ⟨fun hp' => hrest (hp' ▸ hp), fun hp' => hstar (hp' ▸ hp)⟩
    rw [matchesSubject, matchesParts_exact hplain,
      splitDots_injective.eq_iff]

/-- One segment of any kind, then the rest. -/
theorem pattern_language_wildcards :
    WellFormed "a.*.>"
      ∧ (matchesSubject "a.*.>" (splitDots "a.b.c.d") = true
        ↔ Matches (splitDots "a.*.>") (splitDots "a.b.c.d"))
      ∧ (matchesSubject "a.b*" (splitDots "a.b*") = true
        ↔ "a.b*" = "a.b*") := by
  have hwild : WellFormed "a.*.>" :=
    (pattern_language.1 _).1 (by decide +kernel)
  have hplain : WellFormed "a.b*" :=
    (pattern_language.1 _).1 (by decide +kernel)
  exact ⟨hwild, (pattern_language.2 _ hwild _).1,
    (pattern_language.2 _ hplain _).2.2 (by decide +kernel)
      (by decide +kernel)⟩

end Wup.Gateway
