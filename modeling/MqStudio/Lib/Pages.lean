import MqStudio.Lib.Maps

/-!
# Collections that are read page by page, and grouped

A server hands out a collection in pages, each with a cursor for the next one.  What was read is
grouped by a key, where it has one.

* `listPaged`: the pages up to a number of them, the last one an empty one or one without a cursor.
* `listPaged_of_serves`: within that number the whole collection is read.
* `group`, `getElem?_group`: the entries of each key, in order.
-/

namespace Lib.Pages

open Std Lib.Maps

universe u v w

/-! ### Paging -/

section Paging

variable {α : Type u} {ε : Type v}

/-- A page and the cursor of the next one, an empty one where there is none. -/
abbrev Server (ε : Type v) (α : Type u) := String → Except ε (List α × String)

/-- At most so many pages, from a cursor on. -/
def listPaged (server : Server ε α) : ℕ → String → Except ε (List α)
  | 0, _ => .ok []
  | pages + 1, cursor =>
    match server cursor with
    | .error err => .error err
    | .ok (batch, next) =>
      if batch = [] ∨ next = "" then .ok batch
      else (listPaged server pages next).map (batch ++ ·)

/-- A server that hands out rows from a cursor on, in a number of pages.  It may offer a cursor on
its last page, and answers that one with nothing. -/
inductive Serves (server : Server ε α) : String → ℕ → List α → Prop
  | last {cursor : String} {batch : List α} (h : server cursor = .ok (batch, "")) :
      Serves server cursor 1 batch
  | past {cursor next : String} (h : server cursor = .ok ([], next)) : Serves server cursor 1 []
  | more {cursor next : String} {batch rows : List α} {pages : ℕ}
      (h : server cursor = .ok (batch, next)) (hbatch : batch ≠ []) (hnext : next ≠ "")
      (hrest : Serves server next pages rows) : Serves server cursor (pages + 1) (batch ++ rows)

/-- **A collection of few enough pages is read whole.** -/
theorem listPaged_of_serves {server : Server ε α} {cursor : String} {pages limit : ℕ}
    {rows : List α} (h : Serves server cursor pages rows) (hlimit : pages ≤ limit) :
    listPaged server limit cursor = .ok rows := by
  induction h generalizing limit with
  | last h =>
    obtain ⟨limit, rfl⟩ := Nat.exists_eq_add_of_le' hlimit
    rw [listPaged, h]
    exact if_pos (.inr rfl)
  | past h =>
    obtain ⟨limit, rfl⟩ := Nat.exists_eq_add_of_le' hlimit
    rw [listPaged, h]
    exact if_pos (.inl rfl)
  | more h hbatch hnext hrest ih =>
    obtain ⟨limit, rfl⟩ := Nat.exists_eq_add_of_le' (Nat.le_of_add_left_le hlimit)
    rw [listPaged, h]
    dsimp only
    rw [if_neg (not_or.mpr ⟨hbatch, hnext⟩), ih (by omega)]
    rfl

end Paging

/-! ### Grouping -/

section Grouping

variable {κ : Type u} {β : Type v} [Ord κ] [TransOrd κ] [LawfulEqOrd κ] [DecidableEq κ]

/-- One entry more, under its key. -/
def addTo (key : β → Option κ) (groups : ExtTreeMap κ (List β) compare) (b : β) :
    ExtTreeMap κ (List β) compare :=
  match key b with
  | none => groups
  | some k => groups.insert k (groups[k]?.getD [] ++ [b])

/-- The entries by their keys; those without one are left out. -/
def group (key : β → Option κ) (l : List β) : ExtTreeMap κ (List β) compare :=
  l.foldl (addTo key) ∅

/-- **A group** is the entries of its key, in order. -/
theorem getElem?_group (key : β → Option κ) (l : List β) (k : κ) : (group key l)[k]? =
    if (l.filter fun b => key b = some k) = [] then none
    else some (l.filter fun b => key b = some k) := by
  induction l using List.reverseRecOn with
  | nil => simp [group]
  | append_singleton l b ih =>
    rw [group, List.foldl_append, List.foldl_cons, List.foldl_nil, ← group, addTo,
      List.filter_append]
    cases hkey : key b with
    | none => simp [ih, hkey]
    | some k' =>
      dsimp only
      rw [getElem?_insert]
      by_cases hk : k' = k
      · subst hk
        rw [if_pos rfl, ih]
        by_cases hnil : (l.filter fun b => key b = some k') = []
        · simp [hnil, hkey]
        · simp [hnil, hkey]
      · simp [hk, ih, hkey]

/-- There is a group for a key exactly if an entry has it. -/
theorem exists_group_iff {key : β → Option κ} {l : List β} {k : κ} :
    (∃ entries, (group key l)[k]? = some entries) ↔ ∃ b ∈ l, key b = some k := by
  rw [getElem?_group]
  by_cases hnil : (l.filter fun b => key b = some k) = []
  · rw [if_pos hnil]
    refine iff_of_false (fun ⟨_, h⟩ => nomatch h) ?_
    rintro ⟨b, hb, hkey⟩
    exact List.filter_eq_nil_iff.mp hnil b hb (decide_eq_true hkey)
  · rw [if_neg hnil]
    obtain ⟨b, hb⟩ := List.exists_mem_of_ne_nil _ hnil
    rw [List.mem_filter, decide_eq_true_eq] at hb
    exact iff_of_true ⟨_, rfl⟩ ⟨b, hb⟩

theorem entries_of_group {key : β → Option κ} {l : List β} {k : κ} {entries : List β}
    (h : (group key l)[k]? = some entries) : entries = l.filter fun b => key b = some k := by
  rw [getElem?_group] at h
  split at h
  · cases h
  · exact (Option.some.inj h).symm

end Grouping

end Lib.Pages
