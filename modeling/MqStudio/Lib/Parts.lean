import Mathlib

/-!
# A stream taken apart by its sources

A list whose entries come from several sources, each of which hands over its own entries
in order, interleaved with the others in any way.

* `sum_length_part`: the parts make up the whole.
* `part_flatMap`: the part of one source among whole sources laid end to end.
* `length_filter_lt`, `length_le_filter`, `length_eq_filter`: how far the beginning of a
  source with increasing positions reaches into a range that ends at a bound.
-/

namespace Lib.Parts

universe u v

variable {α : Type u} {κ : Type v} [DecidableEq κ] {f : α → κ}

/-- The entries of one source, in order. -/
def part (f : α → κ) (k : κ) (l : List α) : List α := l.filter fun a => f a = k

theorem mem_part {k : κ} {l : List α} {a : α} : a ∈ part f k l ↔ a ∈ l ∧ f a = k := by
  simp [part]

@[simp] theorem part_nil (k : κ) : part f k [] = [] := rfl

theorem part_append (k : κ) (l m : List α) : part f k (l ++ m) = part f k l ++ part f k m :=
  List.filter_append ..

theorem part_prefix {l m : List α} (h : l <+: m) (k : κ) : part f k l <+: part f k m := h.filter _

theorem part_eq_self {k : κ} {l : List α} (h : ∀ a ∈ l, f a = k) : part f k l = l :=
  List.filter_eq_self.mpr fun a ha => by simpa using h a ha

theorem part_eq_nil {k : κ} {l : List α} (h : ∀ a ∈ l, f a ≠ k) : part f k l = [] :=
  List.filter_eq_nil_iff.mpr fun a ha => by simpa using h a ha

/-- Entries of the other sources do not count. -/
theorem part_filter_ne {k k' : κ} (h : k ≠ k') (l : List α) :
    part f k (l.filter fun a => f a ≠ k') = part f k l := by
  rw [part, part, List.filter_filter]
  refine List.filter_congr fun a _ => ?_
  by_cases ha : f a = k
  · simp [ha, h]
  · simp [ha]

/-- **The parts make up the whole.** -/
theorem sum_length_part {ks : List κ} (hks : ks.Nodup) {l : List α} (h : ∀ a ∈ l, f a ∈ ks) :
    (ks.map fun k => (part f k l).length).sum = l.length := by
  induction ks generalizing l with
  | nil =>
    cases l with
    | nil => rfl
    | cons a l => exact absurd (h a List.mem_cons_self) List.not_mem_nil
  | cons k ks ih =>
    obtain ⟨hk, hks⟩ := List.nodup_cons.mp hks
    have hrest := @ih hks (l.filter fun a => f a ≠ k) fun a ha => by
      obtain ⟨hmem, hne⟩ := List.mem_filter.mp ha
      exact (List.mem_cons.mp (h a hmem)).resolve_left (by simpa using hne)
    have hsame : (ks.map fun k' => (part f k' (l.filter fun a => f a ≠ k)).length) =
        ks.map fun k' => (part f k' l).length := by
      refine List.map_congr_left fun k' hk' => ?_
      have hne : k' ≠ k := fun he => hk (he ▸ hk')
      rw [part_filter_ne hne]
    have hsplit := List.length_eq_length_filter_add (l := l) fun a => decide (f a = k)
    rw [List.map_cons, List.sum_cons, ← hsame, hrest, hsplit, part]
    congr 2
    refine List.filter_congr fun a _ => ?_
    simp

/-- **The part of one source** among whole sources laid end to end. -/
theorem part_flatMap {ks : List κ} (hks : ks.Nodup) {g : κ → List α}
    (hown : ∀ k, ∀ a ∈ g k, f a = k) (k : κ) :
    part f k (ks.flatMap g) = if k ∈ ks then g k else [] := by
  induction ks with
  | nil => rfl
  | cons k' ks ih =>
    obtain ⟨hk', hks⟩ := List.nodup_cons.mp hks
    rw [List.flatMap_cons, part_append, ih hks]
    by_cases he : k = k'
    · subst he
      simp [hk', part_eq_self (hown k)]
    · rw [part_eq_nil fun a ha => by rw [hown k' a ha]; exact Ne.symm he]
      simp [he]

/-- What is among the first that pass has fewer than that many that pass in front of it. -/
theorem length_filter_lt_of_mem_take {p : α → Bool} {front rest : List α} {a : α} {n : Nat}
    (hn : a ∉ front) (ha : a ∈ ((front ++ a :: rest).filter p).take n) :
    (front.filter p).length < n := by
  by_contra hle
  rw [List.filter_append, List.take_append_of_le_length (by omega)] at ha
  exact hn (List.mem_of_mem_filter (List.mem_of_mem_take ha))

/-! ### Positions below a bound -/

variable {position : α → ℤ} {l taken : List α} {bound : ℤ}

/-- What follows a beginning has greater positions. -/
theorem filter_eq_of_isPrefix (hl : l.Pairwise fun a b => position a < position b)
    (h : taken <+: l) {a : α} (ha : a ∈ taken) (hb : bound ≤ position a + 1) :
    (l.filter fun a => position a < bound) = taken.filter fun a => position a < bound := by
  obtain ⟨rest, rfl⟩ := h
  have hrest : (rest.filter fun a => decide (position a < bound)) = [] := by
    refine List.filter_eq_nil_iff.mpr fun b hmem => ?_
    have hlt := (List.pairwise_append.mp hl).2.2 a ha b hmem
    simp only [decide_eq_true_eq]
    omega
  rw [List.filter_append, hrest, List.append_nil]

/-- A beginning that goes past the bound holds everything below it and more. -/
theorem length_filter_lt (hl : l.Pairwise fun a b => position a < position b) (h : taken <+: l)
    {a : α} (ha : a ∈ taken) (hb : bound ≤ position a) :
    (l.filter fun a => position a < bound).length < taken.length := by
  rw [filter_eq_of_isPrefix hl h ha (by omega), List.length_filter_lt_length_iff_exists]
  exact ⟨a, ha, by simpa using hb⟩

/-- A beginning below the bound holds no more than there is below it. -/
theorem length_le_filter (h : taken <+: l) (hb : ∀ a ∈ taken, position a < bound) :
    taken.length ≤ (l.filter fun a => position a < bound).length := by
  have hsame : (taken.filter fun a => position a < bound) = taken :=
    List.filter_eq_self.mpr fun a ha => by simpa using hb a ha
  have hle := (h.filter fun a => decide (position a < bound)).length_le
  rwa [hsame] at hle

/-- A beginning below the bound that comes to its last position holds all there is below it. -/
theorem length_eq_filter (hl : l.Pairwise fun a b => position a < position b) (h : taken <+: l)
    (hb : ∀ a ∈ taken, position a < bound) {a : α} (ha : a ∈ taken)
    (hlast : bound ≤ position a + 1) :
    taken.length = (l.filter fun a => position a < bound).length := by
  have hsame : (taken.filter fun a => position a < bound) = taken :=
    List.filter_eq_self.mpr fun a ha => by simpa using hb a ha
  rw [filter_eq_of_isPrefix hl h ha hlast, hsame]

end Lib.Parts
