import Mathlib

/-!
# Maps in insertion order

The keyed collections of JavaScript: a list of entries with distinct keys, in the
order the keys were first set.  Setting a key that is there keeps its place.
The list carries the proof that its keys are distinct, so a lookup and a walk
over the values see the same entries (`mem_values`).
-/

namespace Lib

universe u v

variable {κ : Type u} {α : Type v} [DecidableEq κ]

/-- Entries with distinct keys, in insertion order. -/
structure OrderedMap (κ : Type u) (α : Type v) where
  entries : List (κ × α)
  nodup : (entries.map Prod.fst).Nodup

namespace OrderedMap

def empty : OrderedMap κ α := ⟨[], List.nodup_nil⟩

def values (m : OrderedMap κ α) : List α := m.entries.map Prod.snd

/-- The value of a key. -/
def get? (m : OrderedMap κ α) (k : κ) : Option α := m.entries.lookup k

/-- A key set in place, or at the end. -/
def setEntries (k : κ) (v : α) : List (κ × α) → List (κ × α)
  | [] => [(k, v)]
  | e :: es => if e.1 = k then (k, v) :: es else e :: setEntries k v es

theorem mem_map_fst_setEntries {k a : κ} {v : α} {es : List (κ × α)} :
    a ∈ (setEntries k v es).map Prod.fst ↔ a = k ∨ a ∈ es.map Prod.fst := by
  induction es with
  | nil => simp [setEntries]
  | cons e es ih =>
    by_cases h : e.1 = k
    · simp [setEntries, h]
    · simp only [setEntries, h, if_false, List.map_cons, List.mem_cons, ih]
      tauto

theorem nodup_setEntries (k : κ) (v : α) {es : List (κ × α)} (h : (es.map Prod.fst).Nodup) :
    ((setEntries k v es).map Prod.fst).Nodup := by
  induction es with
  | nil => simp [setEntries]
  | cons e es ih =>
    rw [List.map_cons, List.nodup_cons] at h
    by_cases he : e.1 = k
    · rw [setEntries, if_pos he, List.map_cons, List.nodup_cons]
      exact ⟨he ▸ h.1, h.2⟩
    · rw [setEntries, if_neg he, List.map_cons, List.nodup_cons, mem_map_fst_setEntries]
      exact ⟨fun hm => hm.elim he h.1, ih h.2⟩

def set (m : OrderedMap κ α) (k : κ) (v : α) : OrderedMap κ α :=
  ⟨setEntries k v m.entries, nodup_setEntries k v m.nodup⟩

@[simp] theorem get?_empty (k : κ) : (empty : OrderedMap κ α).get? k = none := rfl

theorem get?_set (m : OrderedMap κ α) (k a : κ) (v : α) :
    (m.set k v).get? a = if k = a then some v else m.get? a := by
  have h : ∀ es : List (κ × α),
      (setEntries k v es).lookup a = if k = a then some v else es.lookup a := by
    intro es
    induction es with
    | nil =>
      by_cases ha : k = a
      · simp [setEntries, ha]
      · have ha' : (a == k) = false := by simpa using Ne.symm ha
        simp [setEntries, List.lookup_cons, ha, ha']
    | cons e es ih =>
      obtain ⟨b, w⟩ := e
      by_cases hb : b = k
      · subst hb
        by_cases ha : b = a
        · simp [setEntries, ha]
        · have ha' : (a == b) = false := by simpa using Ne.symm ha
          simp [setEntries, List.lookup_cons, ha, ha']
      · rw [setEntries, if_neg hb, List.lookup_cons, List.lookup_cons, ih]
        by_cases ha : a = b
        · subst ha
          simp [Ne.symm hb]
        · have ha' : (a == b) = false := by simpa using ha
          simp [ha']
  exact h m.entries

theorem mem_entries {m : OrderedMap κ α} {k : κ} {v : α} :
    (k, v) ∈ m.entries ↔ m.get? k = some v := by
  have h : ∀ es : List (κ × α), (es.map Prod.fst).Nodup →
      ((k, v) ∈ es ↔ es.lookup k = some v) := by
    intro es
    induction es with
    | nil => simp
    | cons e es ih =>
      intro hn
      obtain ⟨b, w⟩ := e
      rw [List.map_cons, List.nodup_cons] at hn
      rw [List.mem_cons, List.lookup_cons]
      by_cases hb : k = b
      · subst hb
        have hnot : (k, v) ∉ es := fun hx => hn.1 (List.mem_map.mpr ⟨_, hx, rfl⟩)
        simp [hnot, eq_comm]
      · have hb' : (k == b) = false := by simpa using hb
        simp [hb, hb', ih hn.2]
  exact h m.entries m.nodup

theorem mem_values {m : OrderedMap κ α} {v : α} : v ∈ m.values ↔ ∃ k, m.get? k = some v := by
  simp only [values, List.mem_map, Prod.exists, exists_eq_right, mem_entries]

end OrderedMap

end Lib
