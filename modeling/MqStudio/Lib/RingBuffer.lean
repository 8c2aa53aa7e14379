import Mathlib

/-!
# Overwriting ring buffers

A buffer of a fixed number of cells that keeps the last values pushed.  What it
holds runs from the oldest cell around the end of the buffer, so every index is
taken modulo the number of cells.

A `RingBuffer` carries that the cells in use hold a value, so no read of one fails.

* `toList_push`: a push adds its value at the end, and loses the oldest one
  where the ring was full.
-/

namespace Lib

universe u

variable {α : Type u}

/-- Cells, of which `length` are in use from `start` on. -/
structure RingBuffer (α : Type u) where
  cells : List (Option α)
  start : Nat
  length : Nat
  start_lt : start < cells.length
  length_le : length ≤ cells.length
  filled : ∀ i < length, (cells[(start + i) % cells.length]?).join.isSome = true

namespace RingBuffer

/-! ### Indices -/

/-- Offsets below the number of cells stand for different cells. -/
theorem add_mod_inj {n s i j : Nat} (hi : i < n) (hj : j < n) (h : (s + i) % n = (s + j) % n) :
    i = j := by
  have hmod : i ≡ j [MOD n] := Nat.ModEq.add_left_cancel' s h
  rwa [Nat.ModEq, Nat.mod_eq_of_lt hi, Nat.mod_eq_of_lt hj] at hmod

theorem next_mod (n s i : Nat) : ((s + 1) % n + i) % n = (s + (i + 1)) % n := by
  rw [Nat.mod_add_mod]
  congr 1
  omega

theorem getElem?_set_mod {cells : List (Option α)} {s i j : Nat} (a : Option α)
    (hi : i < cells.length) (hj : j < cells.length) :
    (cells.set ((s + i) % cells.length) a)[(s + j) % cells.length]? =
      if i = j then some a else cells[(s + j) % cells.length]? := by
  have hlt : (s + i) % cells.length < cells.length := Nat.mod_lt _ (Nat.zero_lt_of_lt hi)
  rw [List.getElem?_set]
  by_cases hij : i = j
  · subst hij
    simp [hlt]
  · rw [if_neg fun h => hij (add_mod_inj hi hj h), if_neg hij]

/-- Writing the oldest cell and starting at the one after it. -/
theorem getElem?_set_start {cells : List (Option α)} {s i : Nat} (a : Option α)
    (hs : s < cells.length) (hi : i < cells.length) :
    (cells.set s a)[((s + 1) % cells.length + i) % cells.length]? =
      if i + 1 = cells.length then some a else cells[(s + (i + 1)) % cells.length]? := by
  rw [next_mod]
  split
  · rename_i hlast
    rw [hlast, Nat.add_mod_right, Nat.mod_eq_of_lt hs, List.getElem?_set_self hs]
  · have hnext : i + 1 < cells.length := by omega
    have hset := getElem?_set_mod (s := s) a (Nat.zero_lt_of_lt hi) hnext
    rwa [Nat.add_zero, Nat.mod_eq_of_lt hs, if_neg (Nat.zero_ne_add_one i)] at hset

/-! ### Contents -/

/-- The value `i` cells after the oldest. -/
def get? (r : RingBuffer α) (i : Nat) : Option α := (r.cells[(r.start + i) % r.cells.length]?).join

/-- What the ring holds, oldest first. -/
def toList (r : RingBuffer α) : List α :=
  List.ofFn fun i : Fin r.length => (r.get? i).get (r.filled i i.isLt)

@[simp] theorem length_toList (r : RingBuffer α) : r.toList.length = r.length := List.length_ofFn

theorem getElem?_toList (r : RingBuffer α) (i : Nat) :
    r.toList[i]? = if i < r.length then r.get? i else none := by
  rw [toList, List.getElem?_ofFn]
  split
  · exact Option.some_get _
  · rfl

/-- Every cell empty. -/
def empty (n : Nat) (h : 0 < n) : RingBuffer α where
  cells := List.replicate n none
  start := 0
  length := 0
  start_lt := by simpa using h
  length_le := Nat.zero_le _
  filled i hi := by omega

@[simp] theorem toList_empty (n : Nat) (h : 0 < n) : (empty n h : RingBuffer α).toList = [] :=
  List.eq_nil_of_length_eq_zero (length_toList _)

/-! ### Pushing -/

/-- Adds a value, over the oldest one where every cell is in use. -/
def push (r : RingBuffer α) (a : α) : RingBuffer α :=
  if h : r.length = r.cells.length then
    { cells := r.cells.set r.start (some a)
      start := (r.start + 1) % r.cells.length
      length := r.length
      start_lt := by
        rw [List.length_set]
        exact Nat.mod_lt _ (Nat.zero_lt_of_lt r.start_lt)
      length_le := by rw [List.length_set]; exact r.length_le
      filled := by
        intro i hi
        rw [List.length_set, getElem?_set_start _ r.start_lt (h ▸ hi)]
        split
        · rfl
        · exact r.filled _ (by omega) }
  else
    { cells := r.cells.set ((r.start + r.length) % r.cells.length) (some a)
      start := r.start
      length := r.length + 1
      start_lt := by rw [List.length_set]; exact r.start_lt
      length_le := by
        rw [List.length_set]
        have := r.length_le
        omega
      filled := by
        intro i hi
        have := r.length_le
        rw [List.length_set, getElem?_set_mod _ (by omega) (by omega)]
        split
        · rfl
        · exact r.filled _ (by omega) }

@[simp] theorem length_cells_push (r : RingBuffer α) (a : α) :
    (r.push a).cells.length = r.cells.length := by
  unfold push
  split <;> exact List.length_set ..

theorem length_push (r : RingBuffer α) (a : α) :
    (r.push a).length = if r.length = r.cells.length then r.length else r.length + 1 := by
  unfold push
  split <;> simp [*]

/-- **The last values are kept.** -/
theorem toList_push (r : RingBuffer α) (a : α) :
    (r.push a).toList =
      (if r.length = r.cells.length then r.toList.tail else r.toList) ++ [a] := by
  have hpos : 0 < r.cells.length := Nat.zero_lt_of_lt r.start_lt
  have hle := r.length_le
  apply List.ext_getElem?
  intro i
  rw [getElem?_toList, length_push]
  by_cases h : r.length = r.cells.length
  · -- The cell of the oldest value is taken, and the next one is the oldest now.
    have hget : i < r.cells.length → (r.push a).get? i =
        if i + 1 = r.cells.length then some a else r.get? (i + 1) := by
      intro hi
      have hset := getElem?_set_start (some a) r.start_lt hi
      unfold get? push
      simp only [dif_pos h, List.length_set, hset]
      split <;> rfl
    rw [if_pos h, if_pos h]
    by_cases hi : i + 1 < r.length
    · rw [if_pos (by omega), hget (by omega), if_neg (by omega),
        List.getElem?_append_left (by simp; omega), List.getElem?_tail, getElem?_toList, if_pos hi]
    · by_cases hlast : i + 1 = r.length
      · rw [if_pos (by omega), hget (by omega), if_pos (by omega),
          List.getElem?_append_right (by simp; omega)]
        simp [← hlast]
      · rw [if_neg (by omega), List.getElem?_eq_none (by simp; omega)]
  · have hget : i < r.cells.length → (r.push a).get? i =
        if r.length = i then some a else r.get? i := by
      intro hi
      have hset := getElem?_set_mod (s := r.start) (i := r.length) (some a) (by omega) hi
      unfold get? push
      simp only [dif_neg h, List.length_set, hset]
      split <;> rfl
    rw [if_neg h, if_neg h]
    by_cases hi : i < r.length
    · rw [if_pos (by omega), hget (by omega), if_neg (by omega),
        List.getElem?_append_left (by simpa using hi), getElem?_toList, if_pos hi]
    · by_cases hlast : i = r.length
      · rw [if_pos (by omega), hget (by omega), if_pos (by omega),
          List.getElem?_append_right (by simp; omega)]
        simp [hlast]
      · rw [if_neg (by omega), List.getElem?_eq_none (by simp; omega)]

end RingBuffer

end Lib
