import MqStudio.Mqtt.Matching

/-!
# The filters that can be subscribed to

`validFilter` against the rules for topic filters and shared subscriptions.  It splits the share
name off a shared subscription and looks at the levels of what is left, so that nothing looks at
the share name itself.

* `validLevels_iff`: the loop over the levels decides the rules for wildcards.
* `validFilter_iff`: what is accepted is a filter, or any share name with a filter behind it.
* `valid_filter_right_iff`: that is right unless the share name holds a wildcard.
-/

namespace MqStudio.Mqtt

open Lib.Text

/-! ### The rules -/

def IsWildcard (c : Char) : Prop := c = '+' ∨ c = '#'

/-- A wildcard is a whole level, and `#` is the last one. -/
structure WellFormed (filter : String) : Prop where
  nonempty : filter ≠ ""
  whole : ∀ level ∈ levels filter, (∃ c ∈ level, IsWildcard c) → level = ['+'] ∨ level = ['#']
  last : ∀ before after, levels filter = before ++ ['#'] :: after → after = []

/-- A share name is not empty and has neither a slash nor a wildcard. -/
structure ShareName (group : String) : Prop where
  nonempty : group ≠ ""
  slashless : '/' ∉ group.toList
  plain : ∀ c ∈ group.toList, ¬ IsWildcard c

/-- What can be subscribed to: a filter, or one behind a share name. -/
inductive Subscribable : String → Prop
  | plain {filter : String} (h : ¬ ∃ rest, filter = sharedPrefix ++ rest)
    (wellFormed : WellFormed filter) : Subscribable filter
  | shared {group inner : String} (name : ShareName group) (wellFormed : WellFormed inner) :
    Subscribable (sharedPrefix ++ (group ++ "/" ++ inner))

/-- A filter behind a share name that holds a wildcard. -/
def WildShare (filter : String) : Prop :=
  ∃ group inner, '/' ∉ group.toList ∧ (∃ c ∈ group.toList, IsWildcard c) ∧ WellFormed inner ∧
    filter = sharedPrefix ++ (group ++ "/" ++ inner)

/-! ### The loop over the levels -/

theorem any_wildcard_iff {level : List Char} :
    (level.any fun c => c = '+' || c = '#') = true ↔ ∃ c ∈ level, IsWildcard c := by
  simp [IsWildcard]

/-- The loop over the levels decides the rules for wildcards. -/
theorem validLevels_iff (ls : List (List Char)) :
    validLevels ls = true ↔
      (∀ level ∈ ls, (∃ c ∈ level, IsWildcard c) → level = ['+'] ∨ level = ['#']) ∧
        ∀ before after, ls = before ++ ['#'] :: after → after = [] := by
  induction ls with
  | nil => simp [validLevels]
  | cons level rest ih =>
    have hlast : (∀ before after, level :: rest = before ++ ['#'] :: after → after = []) ↔
        (level = ['#'] → rest = []) ∧
          ∀ before after, rest = before ++ ['#'] :: after → after = [] := by
      constructor
      · intro h
        refine ⟨fun hlevel => ?_, fun before after hrest => ?_⟩
        · exact h [] rest (by rw [hlevel, List.nil_append])
        · exact h (level :: before) after (by rw [hrest, List.cons_append])
      · rintro ⟨hhead, htail⟩ before after heq
        cases before with
        | nil =>
          obtain ⟨rfl, rfl⟩ := List.cons.inj heq
          exact hhead rfl
        | cons b before => exact htail before after (List.cons.inj heq).2
    rw [validLevels, List.forall_mem_cons, hlast]
    by_cases hrest : level = ['#']
    · subst hrest
      rw [if_pos rfl, Bool.and_eq_true, List.isEmpty_iff, ih]
      constructor
      · rintro ⟨hnil, hwhole, htail⟩
        exact ⟨⟨fun _ => .inr rfl, hwhole⟩, fun _ => hnil, htail⟩
      · rintro ⟨⟨-, hwhole⟩, hnil, htail⟩
        exact ⟨hnil rfl, hwhole, htail⟩
    · rw [if_neg hrest]
      by_cases hone : level = ['+']
      · subst hone
        rw [if_pos rfl, ih]
        constructor
        · rintro ⟨hwhole, htail⟩
          exact ⟨⟨fun _ => .inl rfl, hwhole⟩, fun h => absurd h hrest, htail⟩
        · rintro ⟨⟨-, hwhole⟩, -, htail⟩
          exact ⟨hwhole, htail⟩
      · rw [if_neg hone]
        by_cases hwild : ∃ c ∈ level, IsWildcard c
        · rw [if_pos (any_wildcard_iff.mpr hwild)]
          constructor
          · intro h
            cases h
          · rintro ⟨⟨hlevel, -⟩, -⟩
            rcases hlevel hwild with h | h
            · exact absurd h hone
            · exact absurd h hrest
        · rw [if_neg (mt any_wildcard_iff.mp hwild), ih]
          constructor
          · rintro ⟨hwhole, htail⟩
            exact ⟨⟨fun h => absurd h hwild, hwhole⟩, fun h => absurd h hrest, htail⟩
          · rintro ⟨⟨-, hwhole⟩, -, htail⟩
            exact ⟨hwhole, htail⟩

/-! ### Filters -/

theorem wellFormed_iff (filter : String) :
    WellFormed filter ↔ filter ≠ "" ∧ validLevels (levels filter) = true := by
  rw [validLevels_iff]
  exact ⟨fun h => ⟨h.nonempty, h.whole, h.last⟩, fun h => ⟨h.1, h.2.1, h.2.2⟩⟩

theorem validFilter_plain {filter : String} (h : ¬ ∃ rest, filter = sharedPrefix ++ rest) :
    validFilter filter = true ↔ WellFormed filter := by
  have hpre : hasPrefix filter sharedPrefix = false := by
    rw [Bool.eq_false_iff]
    exact fun hp => h (hasPrefix_iff.mp hp)
  rw [wellFormed_iff, validFilter, splitShared_plain h, hpre]
  by_cases hempty : filter = "" <;> simp [hempty]

/-- The share name is looked at for being empty only. -/
theorem validFilter_shared {group : String} (inner : String) (h : '/' ∉ group.toList) :
    validFilter (sharedPrefix ++ (group ++ "/" ++ inner)) = true ↔
      group ≠ "" ∧ WellFormed inner := by
  have hne : sharedPrefix ++ (group ++ "/" ++ inner) ≠ "" := by
    intro he
    have := congrArg String.toList he
    simp [sharedPrefix] at this
  rw [wellFormed_iff, validFilter, if_neg hne, splitShared_shared inner h, hasPrefix_append]
  by_cases hinner : inner = "" <;> by_cases hgroup : group = "" <;> simp [hinner, hgroup]

/-- A share name with nothing behind it is refused. -/
theorem validFilter_group {rest : String} (h : '/' ∉ rest.toList) :
    validFilter (sharedPrefix ++ rest) = false := by
  rw [validFilter, splitShared_group h, hasPrefix_append]
  simp

/-- The share name and the filter behind it can be read off. -/
theorem shared_inj {group group' inner inner' : String} (h : '/' ∉ group.toList)
    (h' : '/' ∉ group'.toList)
    (heq : sharedPrefix ++ (group ++ "/" ++ inner) = sharedPrefix ++ (group' ++ "/" ++ inner')) :
    group = group' ∧ inner = inner' := by
  have hsplit := splitShared_shared inner h
  rw [heq, splitShared_shared inner' h'] at hsplit
  obtain ⟨hgroup, hinner⟩ := Prod.mk.inj hsplit
  exact ⟨hgroup.symm, hinner.symm⟩

theorem subscribable_shared_iff {group inner : String} (h : '/' ∉ group.toList) :
    Subscribable (sharedPrefix ++ (group ++ "/" ++ inner)) ↔
      ShareName group ∧ WellFormed inner := by
  constructor
  · intro hsub
    generalize hfilter : sharedPrefix ++ (group ++ "/" ++ inner) = filter at hsub
    cases hsub with
    | plain hplain _ => exact absurd ⟨_, hfilter.symm⟩ hplain
    | shared name wellFormed =>
      obtain ⟨rfl, rfl⟩ := shared_inj h name.slashless hfilter
      exact ⟨name, wellFormed⟩
  · rintro ⟨hname, hinner⟩
    exact .shared hname hinner

/-- **A filter behind a share name that holds a wildcard is accepted**, and cannot be subscribed
to. -/
theorem WildShare.accepted {filter : String} (h : WildShare filter) :
    validFilter filter = true ∧ ¬ Subscribable filter := by
  obtain ⟨group, inner, hslash, ⟨c, hc, hwild⟩, hinner, rfl⟩ := h
  have hne : group ≠ "" := by
    rintro rfl
    exact List.not_mem_nil hc
  refine ⟨(validFilter_shared inner hslash).mpr ⟨hne, hinner⟩, fun hsub => ?_⟩
  exact ((subscribable_shared_iff hslash).mp hsub).1.plain c hc hwild

/-- What is accepted is a filter, or any share name with a filter behind it. -/
theorem validFilter_iff (filter : String) :
    validFilter filter = true ↔ Subscribable filter ∨ WildShare filter := by
  constructor
  · intro hvalid
    by_cases hshared : ∃ rest, filter = sharedPrefix ++ rest
    · obtain ⟨rest, rfl⟩ := hshared
      by_cases hslash : '/' ∈ rest.toList
      · obtain ⟨group, inner, hgroup, rfl⟩ := exists_group hslash
        obtain ⟨hne, hinner⟩ := (validFilter_shared inner hgroup).mp hvalid
        by_cases hwild : ∃ c ∈ group.toList, IsWildcard c
        · exact .inr ⟨group, inner, hgroup, hwild, hinner, rfl⟩
        · exact .inl (.shared ⟨hne, hgroup, fun c hc hw => hwild ⟨c, hc, hw⟩⟩ hinner)
      · rw [validFilter_group hslash] at hvalid
        cases hvalid
    · exact .inl (.plain hshared ((validFilter_plain hshared).mp hvalid))
  · rintro (hsub | hwild)
    · cases hsub with
      | plain hplain wellFormed => exact (validFilter_plain hplain).mpr wellFormed
      | shared name wellFormed =>
        exact (validFilter_shared _ name.slashless).mpr ⟨name.nonempty, wellFormed⟩
    · exact hwild.accepted.1

/-- **`validFilter` is right about a filter exactly if it is not one behind a share name that holds
a wildcard.** -/
theorem valid_filter_right_iff (filter : String) :
    (validFilter filter = true ↔ Subscribable filter) ↔ ¬ WildShare filter := by
  constructor
  · intro hright hwild
    exact hwild.accepted.2 (hright.mp hwild.accepted.1)
  · intro hwild
    rw [validFilter_iff]
    exact or_iff_left hwild

/-- A share name may not be a wildcard. -/
theorem wild_share_name_accepted :
    ¬ (validFilter "$share/+/a" = true ↔ Subscribable "$share/+/a") := by
  intro hright
  have hsub := hright.mp (by decide)
  have hname : ShareName "+" ∧ WellFormed "a" :=
    (subscribable_shared_iff (by decide)).mp hsub
  exact hname.1.plain '+' (by decide) (.inl rfl)

end MqStudio.Mqtt
