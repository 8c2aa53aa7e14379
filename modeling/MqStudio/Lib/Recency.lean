import Mathlib

/-!
# What was used last

A history of uses, the newest first, and the values in it by their last use.

* `touch`, `recents`: moving a value to the front, and what a history comes to.
* `take_recents_cons`: a list that is cut after each use is the list that is cut once, so that what
  was dropped is not missed.
* `use`: the values carry something that a use changes; `keys_use` says which are there.
-/

namespace Lib.Recency

universe u v

variable {α : Type u} {β : Type v} [DecidableEq α] {a b : α} {l h : List α} {n : ℕ}

/-- Moves a value to the front. -/
def touch (a : α) (l : List α) : List α := a :: l.filter (· ≠ a)

/-- The distinct values of a history, by their last use. -/
def recents : List α → List α
  | [] => []
  | a :: h => touch a (recents h)

theorem mem_touch : b ∈ touch a l ↔ b = a ∨ b ∈ l := by
  by_cases heq : b = a <;> simp [touch, heq]

theorem nodup_touch (hnodup : l.Nodup) : (touch a l).Nodup :=
  List.nodup_cons.mpr ⟨by simp, hnodup.filter _⟩

theorem mem_recents : a ∈ recents h ↔ a ∈ h := by
  induction h with
  | nil => rfl
  | cons b h ih => rw [recents, mem_touch, ih, List.mem_cons]

theorem nodup_recents (h : List α) : (recents h).Nodup := by
  induction h with
  | nil => exact List.nodup_nil
  | cons a h ih => exact nodup_touch ih

/-- Without one value, all but one are left. -/
theorem length_le_filter_ne (hnodup : l.Nodup) (a : α) :
    l.length ≤ (l.filter (· ≠ a)).length + 1 := by
  have hcount := List.nodup_iff_count_le_one.mp hnodup a
  have hsplit := List.length_eq_countP_add_countP (· == a) (l := l)
  rw [← List.countP_eq_length_filter]
  have hsame : l.countP (fun x => decide ¬(x == a) = true) = l.countP (fun x => decide (x ≠ a)) := by
    simp
  rw [← hsame]
  rw [List.count] at hcount
  omega

theorem length_le_touch (hnodup : l.Nodup) (a : α) : l.length ≤ (touch a l).length := by
  have hleft := length_le_filter_ne hnodup a
  rwa [touch, List.length_cons]

/-- **Cutting before a use loses nothing** that is not cut after it. -/
theorem take_touch_take (hnodup : l.Nodup) (a : α) (n : ℕ) :
    (touch a (l.take n)).take n = (touch a l).take n := by
  cases n with
  | zero => rfl
  | succ n =>
    rw [touch, touch, List.take_succ_cons, List.take_succ_cons]
    congr 1
    by_cases hfew : l.length ≤ n + 1
    · rw [List.take_of_length_le hfew]
    · have hcut : (l.take (n + 1)).length = n + 1 := by
        rw [List.length_take]
        omega
      have hleft := length_le_filter_ne (hnodup.sublist (List.take_sublist (n + 1) l)) a
      conv_rhs => rw [← List.take_append_drop (n + 1) l, List.filter_append]
      rw [List.take_append_of_le_length (by omega)]

/-- The last used after one more use, from the last used before it. -/
theorem take_recents_cons (a : α) (h : List α) (n : ℕ) :
    (recents (a :: h)).take n = (touch a ((recents h).take n)).take n :=
  (take_touch_take (nodup_recents h) a n).symm

/-! ### With something that is carried along -/

/-- Uses a key: what it carries is made from what it carried. -/
def use (a : α) (change : Option β → β) (entries : List (α × β)) : List (α × β) :=
  (a, change (entries.lookup a)) :: entries.filter fun e => e.1 ≠ a

theorem keys_use (a : α) (change : Option β → β) (entries : List (α × β)) :
    (use a change entries).map Prod.fst = touch a (entries.map Prod.fst) := by
  rw [use, touch, List.map_cons, List.filter_map]
  rfl

/-- What is there after a use is what was used, or was there before. -/
theorem mem_use {change : Option β → β} {entries : List (α × β)} {e : α × β} :
    e ∈ use a change entries ↔
      e = (a, change (entries.lookup a)) ∨ e ∈ entries ∧ e.1 ≠ a := by
  rw [use, List.mem_cons, List.mem_filter, decide_eq_true_eq]

theorem lookup_filter_ne (hne : b ≠ a) (entries : List (α × β)) :
    (entries.filter fun e => e.1 ≠ a).lookup b = entries.lookup b := by
  induction entries with
  | nil => rfl
  | cons e entries ih =>
    by_cases he : e.1 = a
    · have hb : (b == e.1) = false := beq_eq_false_iff_ne.mpr (he ▸ hne)
      rw [List.filter_cons_of_neg (by simpa using he), ih, List.lookup, hb]
    · rw [List.filter_cons_of_pos (by simpa using he), List.lookup, List.lookup, ih]

theorem lookup_isSome_iff {entries : List (α × β)} :
    (entries.lookup b).isSome ↔ b ∈ entries.map Prod.fst := by
  induction entries with
  | nil => simp
  | cons e entries ih =>
    rw [List.lookup, List.map_cons, List.mem_cons, ← ih]
    by_cases he : b = e.1
    · simp [he]
    · have hb : (b == e.1) = false := beq_eq_false_iff_ne.mpr he
      simp [hb, he]

theorem mem_of_lookup {entries : List (α × β)} {value : β} (h : entries.lookup b = some value) :
    (b, value) ∈ entries := by
  obtain ⟨front, back, heq, -⟩ := List.lookup_eq_some_iff.mp h
  rw [heq]
  exact List.mem_append_right _ List.mem_cons_self

/-- What the first entries have is what all have, for a key that is there. -/
theorem lookup_take (entries : List (α × β)) (n : ℕ) (b : α) : (entries.take n).lookup b =
    if b ∈ (entries.take n).map Prod.fst then entries.lookup b else none := by
  have hsplit := congrArg (List.lookup b) (List.take_append_drop n entries)
  rw [List.lookup_append] at hsplit
  split
  · next hmem =>
    obtain ⟨value, hvalue⟩ := Option.isSome_iff_exists.mp (lookup_isSome_iff.mpr hmem)
    rw [← hsplit, hvalue]
    rfl
  · next hmem =>
    exact Option.not_isSome_iff_eq_none.mp fun h => hmem (lookup_isSome_iff.mp h)

theorem lookup_use_self (a : α) (change : Option β → β) (entries : List (α × β)) :
    (use a change entries).lookup a = some (change (entries.lookup a)) := by
  rw [use, List.lookup_cons_self]

theorem lookup_use (hne : b ≠ a) (change : Option β → β) (entries : List (α × β)) :
    (use a change entries).lookup b = entries.lookup b := by
  have hb : (b == a) = false := beq_eq_false_iff_ne.mpr hne
  rw [use, List.lookup, hb]
  exact lookup_filter_ne hne entries

end Lib.Recency
