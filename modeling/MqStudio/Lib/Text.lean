import Mathlib

/-!
# Text helpers of the Go standard library

Strings are sequences of code points here, as Go's `strings` package sees valid
UTF-8.  `trimSpace`, `fields`, `fieldsFunc` and `equalFold` follow the package
functions of those names, `isSpace` is `unicode.IsSpace`.

* `trimSpace_trimSpace`: trimming is idempotent.
* `fields_intercalate_fields`: joining the fields of a text by one space and
  splitting again gives the same fields, so collapsing white space is idempotent.
-/

namespace Lib.Text

/-- `unicode.IsSpace`: the white space of Latin-1 and the `White_Space` code points above it. -/
def isSpace (c : Char) : Bool :=
  c == ' ' || (9 ≤ c.toNat && c.toNat ≤ 13) || c.toNat == 0x85 || c.toNat == 0xA0 ||
    c.toNat == 0x1680 || (0x2000 ≤ c.toNat && c.toNat ≤ 0x200A) || c.toNat == 0x2028 ||
    c.toNat == 0x2029 || c.toNat == 0x202F || c.toNat == 0x205F || c.toNat == 0x3000

/-! ### Trimming -/

/-- Drop the characters satisfying `p` from both ends. -/
def trim (p : Char → Bool) (cs : List Char) : List Char := (cs.dropWhile p).rdropWhile p

/-- A prefix of a list whose head is kept has a kept head. -/
theorem dropWhile_eq_self_of_prefix {p : Char → Bool} {l m : List Char} (h : m <+: l)
    (hl : l.dropWhile p = l) : m.dropWhile p = m := by
  cases m with
  | nil => rfl
  | cons c m =>
    obtain ⟨r, rfl⟩ := h
    by_cases hc : p c
    · rw [List.cons_append, List.dropWhile_cons_of_pos hc] at hl
      have := (List.dropWhile_suffix p (l := m ++ r)).length_le
      rw [hl] at this
      simp at this
    · rw [List.dropWhile_cons_of_neg hc]

@[simp] theorem trim_trim (p : Char → Bool) (l : List Char) : trim p (trim p l) = trim p l := by
  have h : (trim p l).dropWhile p = trim p l :=
    dropWhile_eq_self_of_prefix (List.rdropWhile_prefix p _) (List.dropWhile_idempotent p l)
  rw [trim, h]
  exact List.rdropWhile_idempotent p _

/-- `strings.TrimSpace`. -/
def trimSpace (s : String) : String := String.ofList (trim isSpace s.toList)

@[simp] theorem trimSpace_trimSpace (s : String) : trimSpace (trimSpace s) = trimSpace s := by
  simp [trimSpace]

@[simp] theorem trimSpace_empty : trimSpace "" = "" := rfl

/-! ### Prefixes -/

/-- `strings.HasPrefix`. -/
def hasPrefix (s p : String) : Bool := p.toList.isPrefixOf s.toList

/-- `strings.TrimPrefix`. -/
def trimPrefix (s p : String) : String :=
  if hasPrefix s p then String.ofList (s.toList.drop p.toList.length) else s

theorem hasPrefix_iff {s p : String} : hasPrefix s p = true ↔ ∃ t, s = p ++ t := by
  rw [hasPrefix, List.isPrefixOf_iff_prefix]
  constructor
  · rintro ⟨t, ht⟩
    refine ⟨String.ofList t, String.toList_inj.mp ?_⟩
    rw [String.toList_append, String.toList_ofList, ht]
  · rintro ⟨t, rfl⟩
    exact ⟨t.toList, String.toList_append.symm⟩

@[simp] theorem hasPrefix_append (p t : String) : hasPrefix (p ++ t) p = true :=
  hasPrefix_iff.mpr ⟨t, rfl⟩

@[simp] theorem trimPrefix_append (p t : String) : trimPrefix (p ++ t) p = t := by
  rw [trimPrefix, if_pos (hasPrefix_append p t), String.toList_append, List.drop_left,
    String.ofList_toList]

theorem append_left_cancel {p s t : String} (h : p ++ s = p ++ t) : s = t := by
  rw [← trimPrefix_append p s, h, trimPrefix_append]

/-! ### Cutting -/

/-- `strings.Cut`, at the first occurrence of a character. -/
def cut (sep : Char) : List Char → Option (List Char × List Char)
  | [] => none
  | c :: cs => if c = sep then some ([], cs) else (cut sep cs).map fun p => (c :: p.1, p.2)

theorem cut_append {sep : Char} {before : List Char} (h : sep ∉ before) (after : List Char) :
    cut sep (before ++ sep :: after) = some (before, after) := by
  induction before with
  | nil => simp [cut]
  | cons c cs ih =>
    have hc : c ≠ sep := fun he => h (by simp [he])
    simp [cut, hc, ih fun hm => h (by simp [hm])]

theorem cut_eq_none {sep : Char} {cs : List Char} (h : sep ∉ cs) : cut sep cs = none := by
  induction cs with
  | nil => rfl
  | cons c cs ih =>
    have hc : c ≠ sep := fun he => h (by simp [he])
    simp [cut, hc, ih fun hm => h (by simp [hm])]

theorem eq_none_of_cut {sep : Char} {cs : List Char} (h : cut sep cs = none) : sep ∉ cs := by
  induction cs with
  | nil => exact List.not_mem_nil
  | cons c cs ih =>
    rw [cut] at h
    split at h
    · cases h
    · rename_i hc
      rw [List.mem_cons, not_or]
      exact ⟨Ne.symm hc, ih (Option.map_eq_none_iff.mp h)⟩

/-- `strings.Cut`, at the first occurrence of a text. -/
def cutText (sep : List Char) : List Char → Option (List Char × List Char)
  | [] => if sep = [] then some ([], []) else none
  | c :: cs =>
    if sep.isPrefixOf (c :: cs) then some ([], (c :: cs).drop sep.length)
    else (cutText sep cs).map fun p => (c :: p.1, p.2)

theorem cutText_append {c : Char} {sep before : List Char} (h : c ∉ before) (after : List Char) :
    cutText (c :: sep) (before ++ (c :: sep) ++ after) = some (before, after) := by
  induction before with
  | nil => simp [cutText, List.isPrefixOf_iff_prefix]
  | cons d ds ih =>
    have hd : c ≠ d := fun he => h (by simp [he])
    have hne : (c :: sep).isPrefixOf (d :: (ds ++ (c :: sep) ++ after)) = false := by
      simp [List.isPrefixOf, hd]
    rw [List.cons_append, List.cons_append, cutText, hne, ih fun hm => h (by simp [hm])]
    rfl

/-- What is in front of a cut is free of the separator. -/
theorem cut_spec {sep : Char} {cs before after : List Char} (h : cut sep cs = some (before, after)) :
    cs = before ++ sep :: after ∧ sep ∉ before := by
  induction cs generalizing before with
  | nil => cases h
  | cons c cs ih =>
    rw [cut] at h
    split at h
    · rename_i hc
      obtain ⟨rfl, rfl⟩ := Prod.mk.inj (Option.some.inj h)
      simp [hc]
    · rename_i hc
      obtain ⟨⟨b, a⟩, hcut, he⟩ := Option.map_eq_some_iff.mp h
      obtain ⟨rfl, rfl⟩ := Prod.mk.inj he
      obtain ⟨rfl, hb⟩ := ih hcut
      exact ⟨rfl, by simp [hb, Ne.symm hc]⟩

/-! ### Splitting into fields -/

/-- The maximal runs of characters that do not satisfy `p`. -/
def words (p : Char → Bool) (cs : List Char) : List (List Char) :=
  (cs.splitOnP p).filter (· ≠ [])

/-- `strings.FieldsFunc`. -/
def fieldsFunc (p : Char → Bool) (s : String) : List String :=
  (words p s.toList).map String.ofList

/-- `strings.Fields`. -/
def fields (s : String) : List String := fieldsFunc isSpace s

theorem not_mem_splitOnP {p : Char → Bool} {cs w : List Char} (h : w ∈ cs.splitOnP p) :
    ∀ c ∈ w, p c = false := by
  induction cs generalizing w with
  | nil => simp at h; simp [h]
  | cons a cs ih =>
    rw [List.splitOnP_cons_eq_if_modifyHead] at h
    obtain ⟨v, vs, hv⟩ := List.exists_cons_of_ne_nil (List.splitOnP_ne_nil p cs)
    rw [hv] at h ih
    split at h
    · rcases List.mem_cons.mp h with rfl | h
      · simp
      · exact ih h
    · rename_i ha
      rcases List.mem_cons.mp h with rfl | h
      · intro c hc
        rcases List.mem_cons.mp hc with rfl | hc
        · simpa using ha
        · exact ih (by simp) c hc
      · exact ih (by simp [h])

theorem words_spec {p : Char → Bool} {cs w : List Char} (h : w ∈ words p cs) :
    w ≠ [] ∧ ∀ c ∈ w, p c = false := by
  simp only [words, List.mem_filter, decide_eq_true_eq] at h
  exact ⟨h.2, not_mem_splitOnP h.1⟩

/-- Words laid end to end with one separator between them split back into themselves. -/
theorem words_intercalate {p : Char → Bool} {sep : Char} (hs : p sep) : ∀ ws : List (List Char),
    (∀ w ∈ ws, w ≠ [] ∧ ∀ c ∈ w, p c = false) → words p ([sep].intercalate ws) = ws := by
  intro ws
  induction ws with
  | nil => intro _; simp [words]
  | cons w ws ih =>
    intro h
    have hw := h w (by simp)
    cases ws with
    | nil => simp [words, List.splitOnP_eq_singleton hw.2, hw.1]
    | cons v vs =>
      have hi := ih fun u hu => h u (by simp [hu])
      rw [List.intercalate_cons_cons, List.append_assoc, List.singleton_append]
      unfold words at hi ⊢
      rw [List.splitOnP_append_cons_of_forall_mem hw.2 sep hs, List.filter_cons, if_pos (by simp [hw.1]),
        hi]

/-- **Collapsing white space is idempotent.** -/
theorem fields_intercalate_fields (s : String) :
    fields (" ".intercalate (fields s)) = fields s := by
  have hl : (" ".intercalate (fields s)).toList = [' '].intercalate (words isSpace s.toList) := by
    simp [fields, fieldsFunc, List.map_map, Function.comp_def]
  conv_lhs => rw [fields, fieldsFunc, hl]
  rw [words_intercalate (by decide) _ fun w hw => words_spec hw]
  rfl

/-! ### Case folding -/

/-- The representative of a code point under simple case folding, for comparing
with ASCII text: the two code points outside ASCII that fold into it are the
Kelvin sign and the long s. -/
def foldRune (c : Char) : Char :=
  if c.toNat = 0x212A then 'K' else if c.toNat = 0x17F then 'S' else c.toUpper

/-- `strings.EqualFold`, where one of the two texts is ASCII. -/
def equalFold (s t : String) : Bool := s.toList.map foldRune == t.toList.map foldRune

/-! ### Upper case -/

/-- `unicode.ToUpper`, as far as it leads to ASCII. -/
def upperRune (c : Char) : Char :=
  if c.toNat = 0x131 then 'I' else if c.toNat = 0x17F then 'S' else c.toUpper

def toUpper (s : String) : String := String.ofList (s.toList.map upperRune)

end Lib.Text
