import MqStudio.Lib.Pattern
import MqStudio.Mqtt.TopicFilter

/-!
# What a topic filter stands for

* `Matches`: the rule of the specification, level by level.
* `carries_iff`: the filter that a shared subscription carries is the one `splitShared` finds.
* `matchLevels_iff`: the loop over the levels decides the pattern that they write.
* `matchesFilter_iff`: the two agree on every filter that `validFilter` accepts.
-/

namespace MqStudio.Mqtt

open Lib.Text Lib.Pattern

/-! ### The rule -/

/-- A level of a filter. -/
def piece (level : List Char) : Piece (List Char) :=
  if level = ['+'] then .one else if level = ['#'] then .many else .word level

/-- The filter that is matched with topics: a shared subscription's stands behind its group. -/
inductive Carries : String → String → Prop
  | plain {filter : String} (h : ¬ ∃ rest, filter = sharedPrefix ++ rest) : Carries filter filter
  | shared {group : String} (inner : String) (h : '/' ∉ group.toList) :
    Carries (sharedPrefix ++ (group ++ "/" ++ inner)) inner

/-- **The specification's rule.**  A wildcard at the front does not stand for a first level that
begins with `$`. -/
def Matches (filter topic : String) : Prop :=
  ∃ inner, Carries filter inner ∧ Match ((levels inner).map piece) (levels topic) ∧
    ¬ ((∃ level rest, levels inner = level :: rest ∧ (level = ['+'] ∨ level = ['#'])) ∧
      ∃ rest, topic = "$" ++ rest)

/-! ### Shared subscriptions -/

theorem splitShared_plain {filter : String} (h : ¬ ∃ rest, filter = sharedPrefix ++ rest) :
    splitShared filter = ("", filter) := by
  have hpre : hasPrefix filter sharedPrefix = false := by
    rw [Bool.eq_false_iff]
    exact fun hp => h (hasPrefix_iff.mp hp)
  simp [splitShared, hpre]

theorem splitShared_shared {group : String} (inner : String) (h : '/' ∉ group.toList) :
    splitShared (sharedPrefix ++ (group ++ "/" ++ inner)) = (group, inner) := by
  have hall : ∀ c ∈ group.toList, decide (c ≠ '/') = true := by
    intro c hc
    exact decide_eq_true fun he => h (he ▸ hc)
  have hrest : (sharedPrefix ++ (group ++ "/" ++ inner)).toList.drop sharedPrefix.toList.length =
      group.toList ++ '/' :: inner.toList := by
    simp [String.toList_append]
  rw [splitShared, hasPrefix_append]
  simp only [Bool.not_true, Bool.false_eq_true, if_false, hrest]
  rw [List.dropWhile_append_of_pos hall, List.takeWhile_append_of_pos hall]
  simp

/-- Without a filter behind its group a shared subscription carries none. -/
theorem splitShared_group {rest : String} (h : '/' ∉ rest.toList) :
    splitShared (sharedPrefix ++ rest) = ("", sharedPrefix ++ rest) := by
  have hall : ∀ c ∈ rest.toList, decide (c ≠ '/') = true := by
    intro c hc
    exact decide_eq_true fun he => h (he ▸ hc)
  have hrest : (sharedPrefix ++ rest).toList.drop sharedPrefix.toList.length = rest.toList := by
    simp [String.toList_append]
  rw [splitShared, hasPrefix_append]
  simp only [Bool.not_true, Bool.false_eq_true, if_false, hrest]
  rw [List.dropWhile_eq_nil_iff.mpr hall]

/-- The group and the filter of a shared subscription, where a filter stands behind the group. -/
theorem exists_group {rest : String} (h : '/' ∈ rest.toList) :
    ∃ group inner, '/' ∉ group.toList ∧ rest = group ++ "/" ++ inner := by
  obtain ⟨⟨before, after⟩, hcut⟩ := Option.ne_none_iff_exists'.mp (mt eq_none_of_cut (not_not.mpr h))
  obtain ⟨hrest, hbefore⟩ := cut_spec hcut
  refine ⟨String.ofList before, String.ofList after, by simpa using hbefore, ?_⟩
  rw [← String.toList_inj, hrest]
  simp [String.toList_append]

/-- The filter that a subscription carries is the one that `splitShared` finds. -/
theorem carries_iff {filter inner : String} (hvalid : validFilter filter = true) :
    Carries filter inner ↔ inner = (splitShared filter).2 := by
  constructor
  · intro h
    cases h with
    | plain h => rw [splitShared_plain h]
    | shared inner h => rw [splitShared_shared inner h]
  · rintro rfl
    by_cases hshared : ∃ rest, filter = sharedPrefix ++ rest
    · obtain ⟨rest, rfl⟩ := hshared
      by_cases hslash : '/' ∈ rest.toList
      · obtain ⟨group, inner, hgroup, rfl⟩ := exists_group hslash
        rw [splitShared_shared inner hgroup]
        exact .shared inner hgroup
      · -- A group with nothing behind it is not a filter.
        rw [validFilter, splitShared_group hslash, hasPrefix_append] at hvalid
        simp at hvalid
    · rw [splitShared_plain hshared]
      exact .plain hshared

/-! ### Levels -/

theorem piece_of_plain {level : List Char} (hrest : level ≠ ['#']) (hone : level ≠ ['+']) :
    piece level = .word level := by rw [piece, if_neg hone, if_neg hrest]

/-- The loop over the levels decides the pattern that they write. -/
theorem matchLevels_iff {filterLevels : List (List Char)} (hvalid : validLevels filterLevels = true)
    (topicLevels : List (List Char)) :
    matchLevels filterLevels topicLevels = true ↔ Match (filterLevels.map piece) topicLevels := by
  induction filterLevels generalizing topicLevels with
  | nil => cases topicLevels <;> simp [matchLevels]
  | cons level rest ih =>
    by_cases hrest : level = ['#']
    · subst hrest
      rw [validLevels, if_pos rfl, Bool.and_eq_true, List.isEmpty_iff] at hvalid
      obtain ⟨rfl, -⟩ := hvalid
      have hpiece : [['#']].map piece = [Piece.many] := rfl
      rw [matchLevels.eq_def, hpiece]
      simpa using match_rest topicLevels
    · rw [validLevels, if_neg hrest] at hvalid
      have hrestValid : validLevels rest = true := by
        split_ifs at hvalid <;> exact hvalid
      cases topicLevels with
      | nil =>
        rw [matchLevels.eq_def]
        by_cases hone : level = ['+']
        · simp [hone, piece]
        · simp [hrest, piece_of_plain hrest hone]
      | cons topicLevel topicLevels =>
        rw [matchLevels.eq_def]
        by_cases hone : level = ['+']
        · simp [hone, piece, ih hrestValid]
        · simp [hrest, hone, piece_of_plain hrest hone, ih hrestValid]

/-! ### Filters -/

theorem validLevels_of_validFilter {filter : String} (h : validFilter filter = true) :
    validLevels (levels (splitShared filter).2) = true := by
  rw [validFilter] at h
  split at h
  · cases h
  · simp only at h
    split at h
    · cases h
    · exact h

theorem head?_levels (level : List Char) (s : String) :
    (levels s).head? = some level ↔ ∃ rest, levels s = level :: rest := List.head?_eq_some_iff

/-- **`matchesFilter` holds exactly when the specification says that the filter matches.** -/
theorem matchesFilter_iff {filter topic : String} (hvalid : validFilter filter = true)
    (htopic : topic ≠ "") : matchesFilter filter topic = true ↔ Matches filter topic := by
  have hfilter : filter ≠ "" := by
    rintro rfl
    cases hvalid
  -- The wildcard at the front, as the code asks for it and as the rule does.
  have hfront : (hasPrefix topic "$" = true ∧ ((levels (splitShared filter).2).head? = some ['#'] ∨
      (levels (splitShared filter).2).head? = some ['+'])) ↔
      (∃ level rest, levels (splitShared filter).2 = level :: rest ∧
        (level = ['+'] ∨ level = ['#'])) ∧ ∃ rest, topic = "$" ++ rest := by
    rw [hasPrefix_iff, head?_levels, head?_levels, and_comm]
    refine and_congr_left fun _ => ⟨?_, ?_⟩
    · rintro (⟨rest, h⟩ | ⟨rest, h⟩)
      · exact ⟨_, rest, h, Or.inr rfl⟩
      · exact ⟨_, rest, h, Or.inl rfl⟩
    · rintro ⟨level, rest, h, rfl | rfl⟩
      · exact Or.inr ⟨rest, h⟩
      · exact Or.inl ⟨rest, h⟩
  have hmatches : Matches filter topic ↔
      Match ((levels (splitShared filter).2).map piece) (levels topic) ∧
        ¬ (hasPrefix topic "$" = true ∧ ((levels (splitShared filter).2).head? = some ['#'] ∨
          (levels (splitShared filter).2).head? = some ['+'])) := by
    rw [hfront]
    constructor
    · rintro ⟨inner, hcarries, h⟩
      rwa [(carries_iff hvalid).mp hcarries] at h
    · intro h
      exact ⟨_, (carries_iff hvalid).mpr rfl, h⟩
  rw [hmatches, ← matchLevels_iff (validLevels_of_validFilter hvalid), matchesFilter,
    if_neg (not_or.mpr ⟨hfilter, htopic⟩)]
  simp only
  split
  case isTrue hwild => simp [hwild]
  case isFalse hwild => simp [hwild]

theorem sensors_match : Matches "sensors/+/#" "sensors/room-1" :=
  (matchesFilter_iff (by decide) (by decide)).mp (by decide)

end MqStudio.Mqtt
