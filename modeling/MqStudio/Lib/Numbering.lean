import Mathlib

/-!
# Giving out numbers

Numbers are given out in the order of a list.  Who comes with a positive number that is not in use
keeps it, everyone else gets the one above the largest in use.

* `number`, `numbers`: the numbers that are given.
* `nodup_numbers`: no two are equal.
* `kept_iff`: a number is kept where it was not given out before.
-/

namespace Lib.Numbering

/-- The largest number in use, if any is. -/
def top (used : List ℤ) : ℤ := used.foldr max 0

/-- The number that is given to one who comes with a number. -/
def number (used : List ℤ) (own : ℤ) : ℤ := if 0 < own ∧ own ∉ used then own else top used + 1

/-- The numbers that are given, in order. -/
def numbers (used : List ℤ) : List ℤ → List ℤ
  | [] => []
  | own :: owns => number used own :: numbers (number used own :: used) owns

variable {used owns : List ℤ} {own n : ℤ}

@[simp] theorem top_nil : top [] = 0 := rfl

@[simp] theorem top_cons (n : ℤ) (used : List ℤ) : top (n :: used) = max n (top used) := rfl

theorem top_nonneg (used : List ℤ) : 0 ≤ top used := by
  induction used with
  | nil => exact le_rfl
  | cons n used ih => exact ih.trans (le_max_right _ _)

theorem le_top (h : n ∈ used) : n ≤ top used := by
  induction used with
  | nil => cases h
  | cons m used ih =>
    rcases List.mem_cons.mp h with rfl | h
    · exact le_max_left _ _
    · exact (ih h).trans (le_max_right _ _)

/-- The largest number is in use, where one is. -/
theorem top_mem (h : 0 < top used) : top used ∈ used := by
  induction used with
  | nil => exact absurd h (lt_irrefl 0)
  | cons m used ih =>
    rw [top_cons] at h ⊢
    rcases max_choice m (top used) with hm | hm
    · rw [hm]
      exact List.mem_cons_self
    · rw [hm] at h ⊢
      exact List.mem_cons_of_mem m (ih h)

theorem number_pos (used : List ℤ) (own : ℤ) : 0 < number used own := by
  have htop := top_nonneg used
  rw [number]
  split
  case isTrue h => exact h.1
  case isFalse => omega

theorem number_not_mem (used : List ℤ) (own : ℤ) : number used own ∉ used := by
  rw [number]
  split
  case isTrue h => exact h.2
  case isFalse =>
    intro hmem
    have hle := le_top hmem
    omega

theorem number_eq_self_iff : number used own = own ↔ 0 < own ∧ own ∉ used := by
  constructor
  · intro h
    have hpos := number_pos used own
    have hnot := number_not_mem used own
    rw [h] at hpos hnot
    exact ⟨hpos, hnot⟩
  · exact fun h => if_pos h

@[simp] theorem length_numbers (used owns : List ℤ) : (numbers used owns).length = owns.length := by
  induction owns generalizing used with
  | nil => rfl
  | cons own owns ih => rw [numbers, List.length_cons, List.length_cons, ih]

theorem not_mem_used (h : n ∈ numbers used owns) : n ∉ used := by
  induction owns generalizing used with
  | nil => cases h
  | cons own owns ih =>
    rcases List.mem_cons.mp h with rfl | h
    · exact number_not_mem used own
    · exact fun hmem => ih h (List.mem_cons_of_mem _ hmem)

/-- **No two numbers are equal.** -/
theorem nodup_numbers (used owns : List ℤ) : (numbers used owns).Nodup := by
  induction owns generalizing used with
  | nil => exact List.nodup_nil
  | cons own owns ih =>
    exact List.nodup_cons.mpr ⟨fun h => not_mem_used h List.mem_cons_self, ih _⟩

/-- The next one comes when the numbers before are in use. -/
theorem getElem?_numbers (used before : List ℤ) (own : ℤ) (after : List ℤ) :
    (numbers used (before ++ own :: after))[before.length]? =
      some (number ((numbers used before).reverse ++ used) own) := by
  induction before generalizing used with
  | nil => rfl
  | cons first before ih =>
    rw [List.cons_append, numbers, List.length_cons, List.getElem?_cons_succ, ih, numbers,
      List.reverse_cons, List.append_assoc, List.singleton_append]

/-- **A number is kept** where it was not given out before. -/
theorem kept_iff {before after : List ℤ} :
    (numbers [] (before ++ own :: after))[before.length]? = some own ↔
      0 < own ∧ own ∉ numbers [] before := by
  rw [getElem?_numbers, Option.some.injEq, number_eq_self_iff, List.append_nil, List.mem_reverse]

end Lib.Numbering
