import Mathlib

/-!
# One list of answers for many rows

The questions of every row are asked in one flat list, and the answers are cut back into rows by
counting.

* `drop_flatMap`: what is left after the answers of the first rows are those of the others.
* `filterMap_zipIdx_drop`: rows of one width that are cut out by their index.
* `lookup_zip_map`: the answers of a row by the names that it asked for.
-/

namespace Lib.Batch

universe u v w

variable {α : Type u} {β : Type v} {γ : Type w} {l : List α} {k : ℕ} {f : α → List β}

theorem length_flatMap (hlength : ∀ a ∈ l, (f a).length = k) :
    (l.flatMap f).length = l.length * k := by
  rw [List.length_flatMap, List.map_congr_left hlength, List.map_const', List.sum_replicate,
    smul_eq_mul]

/-- **What is left** after the answers of the first rows. -/
theorem drop_flatMap (hlength : ∀ a ∈ l, (f a).length = k) (i : ℕ) :
    (l.flatMap f).drop (i * k) = (l.drop i).flatMap f := by
  induction l generalizing i with
  | nil => simp
  | cons a l ih =>
    obtain ⟨ha, hl⟩ := List.forall_mem_cons.mp hlength
    cases i with
    | zero => simp
    | succ i =>
      have hsplit : (i + 1) * k = (f a).length + i * k := by rw [ha, Nat.succ_mul, Nat.add_comm]
      rw [List.flatMap_cons, List.drop_succ_cons, hsplit, List.drop_append,
        List.drop_eq_nil_of_le (Nat.le_add_right _ _), List.nil_append, Nat.add_sub_cancel_left]
      exact ih hl i

/-- Rows of one width, each read from where its answers begin. -/
theorem filterMap_zipIdx_drop {g : α → List β → Option γ} {r : α → Option γ}
    (hlength : ∀ a ∈ l, (f a).length = k) (hrow : ∀ a ∈ l, ∀ rest, g a (f a ++ rest) = r a) :
    l.zipIdx.filterMap (fun p => g p.1 ((l.flatMap f).drop (p.2 * k))) = l.filterMap r := by
  have hread : ∀ p ∈ l.zipIdx, g p.1 ((l.flatMap f).drop (p.2 * k)) = r p.1 := by
    rintro ⟨a, i⟩ hp
    have hat : l[i]? = some a := List.mem_zipIdx_iff_getElem?.mp hp
    obtain ⟨hi, rfl⟩ := List.getElem?_eq_some_iff.mp hat
    rw [drop_flatMap hlength, List.drop_eq_getElem_cons hi, List.flatMap_cons]
    exact hrow _ (List.getElem_mem hi) _
  calc l.zipIdx.filterMap (fun p => g p.1 ((l.flatMap f).drop (p.2 * k)))
      = l.zipIdx.filterMap (fun p => r p.1) := List.filterMap_congr hread
    _ = (l.zipIdx.map (·.1)).filterMap r := (List.filterMap_map ..).symm
    _ = l.filterMap r := by rw [List.zipIdx_map_fst]

/-- The answers of a row, by the names that it asked for. -/
theorem lookup_zip_map [DecidableEq α] (l : List α) (g : α → β) (rest : List β) (name : α) :
    (l.zip (l.map g ++ rest)).lookup name = if name ∈ l then some (g name) else none := by
  induction l with
  | nil => rfl
  | cons a l ih =>
    rw [List.map_cons, List.cons_append, List.zip_cons_cons, List.lookup_cons]
    by_cases ha : name = a
    · rw [ha, beq_self_eq_true, if_pos List.mem_cons_self]
    · rw [beq_eq_false_iff_ne.mpr ha]
      refine ih.trans (if_congr ?_ rfl rfl)
      rw [List.mem_cons, or_iff_right ha]

end Lib.Batch
