import Mathlib

/-!
# Lookups in ordered maps

`Std.ExtTreeMap` over keys whose comparison decides equality: lookups after an
update stated with `=`, and the passage between a map and its list of entries.
-/

namespace Lib.Maps

open Std

universe u v

variable {κ : Type u} {ν : Type v} [Ord κ] [TransOrd κ]

/-- The list of keys is empty where the map is. -/
theorem keys_eq_nil_iff {m : ExtTreeMap κ ν compare} : m.keys = [] ↔ m = ∅ := by
  rw [← ExtTreeMap.isEmpty_iff, ← ExtTreeMap.isEmpty_keys]
  simp

variable [LawfulEqOrd κ]

theorem getElem?_of_mem_keys {m : ExtTreeMap κ ν compare} {k : κ} (h : k ∈ m.keys) :
    ∃ v, m[k]? = some v := by
  rw [ExtTreeMap.mem_keys, ExtTreeMap.mem_iff_isSome_getElem?] at h
  exact Option.isSome_iff_exists.mp h

theorem mem_values {m : ExtTreeMap κ ν compare} {v : ν} :
    v ∈ m.toList.map (·.2) ↔ ∃ k : κ, m[k]? = some v := by
  simp only [List.mem_map, Prod.exists, exists_eq_right, ExtTreeMap.mem_toList_iff_getElem?_eq_some]

theorem ne_empty_iff {m : ExtTreeMap κ ν compare} :
    m ≠ ∅ ↔ ∃ (k : κ) (v : ν), m[k]? = some v := by
  constructor
  · intro h
    by_contra hn
    push Not at hn
    apply h
    apply ExtTreeMap.ext_getElem?
    intro k
    rw [ExtTreeMap.getElem?_empty]
    cases hk : m[k]? with
    | none => rfl
    | some v => exact absurd hk (hn k v)
  · rintro ⟨k, v, h⟩ rfl
    simp at h

variable [DecidableEq κ]

/-- A map is its list of entries, inserted one after another. -/
theorem foldl_insert_toList (m : ExtTreeMap κ ν compare) :
    m.toList.foldl (fun acc e => acc.insert e.1 e.2) ∅ = m := by
  rw [← ExtTreeMap.ofList_eq_foldl]
  apply ExtTreeMap.ext_getElem?
  intro k
  cases hk : m[k]? with
  | some v =>
    exact ExtTreeMap.getElem?_ofList_of_mem (k := k) (by simp) ExtTreeMap.distinct_keys_toList
      (ExtTreeMap.mem_toList_iff_getElem?_eq_some.mpr hk)
  | none =>
    apply ExtTreeMap.getElem?_ofList_of_contains_eq_false
    rw [ExtTreeMap.map_fst_toList_eq_keys, ExtTreeMap.contains_keys,
      ExtTreeMap.contains_eq_isSome_getElem?, hk]
    rfl

theorem getElem?_insert (m : ExtTreeMap κ ν compare) (k a : κ) (v : ν) :
    (m.insert k v)[a]? = if k = a then some v else m[a]? := by
  rw [ExtTreeMap.getElem?_insert]
  simp only [Std.compare_eq_iff_eq]

theorem getElem?_erase (m : ExtTreeMap κ ν compare) (k a : κ) :
    (m.erase k)[a]? = if k = a then none else m[a]? := by
  rw [ExtTreeMap.getElem?_erase]
  simp only [Std.compare_eq_iff_eq]

theorem getElem?_modify (m : ExtTreeMap κ ν compare) (k a : κ) (f : ν → ν) :
    (m.modify k f)[a]? = if k = a then m[a]?.map f else m[a]? := by
  rw [ExtTreeMap.getElem?_modify]
  simp only [Std.compare_eq_iff_eq]
  by_cases h : k = a <;> simp [h]

/-- Values put in one after another, where no two are for one key unless they are equal. -/
theorem getElem?_foldl_insert {α : Type u} {l : List α} {key : α → κ} {value : α → ν}
    (h : ∀ a ∈ l, ∀ b ∈ l, key a = key b → value a = value b) {k : κ} {v : ν} :
    (l.foldl (fun m a => m.insert (key a) (value a)) (∅ : ExtTreeMap κ ν compare))[k]? = some v ↔
      ∃ a ∈ l, key a = k ∧ value a = v := by
  induction l using List.reverseRecOn with
  | nil => simp
  | append_singleton l last ih =>
    have ih' := ih fun a ha b hb => h a (List.mem_append_left _ ha) b (List.mem_append_left _ hb)
    rw [List.foldl_append, List.foldl_cons, List.foldl_nil, getElem?_insert]
    by_cases hk : key last = k
    · rw [if_pos hk, Option.some.injEq]
      constructor
      · exact fun hv => ⟨last, by simp, hk, hv⟩
      · rintro ⟨a, ha, hka, rfl⟩
        exact h last (by simp) a ha (hk.trans hka.symm)
    · rw [if_neg hk, ih']
      constructor
      · rintro ⟨a, ha, hka, hv⟩
        exact ⟨a, List.mem_append_left _ ha, hka, hv⟩
      · rintro ⟨a, ha, hka, hv⟩
        rcases List.mem_append.mp ha with ha | ha
        · exact ⟨a, ha, hka, hv⟩
        · rw [List.mem_singleton.mp ha] at hka
          exact absurd hka hk

/-- Putting back what was taken out gives the map again. -/
theorem insert_erase_self {m : ExtTreeMap κ ν compare} {k : κ} {v : ν} (h : m[k]? = some v) :
    (m.erase k).insert k v = m := by
  apply ExtTreeMap.ext_getElem?
  intro a
  rw [getElem?_insert, getElem?_erase]
  by_cases ha : k = a
  · subst ha; simp [h]
  · simp [ha]

/-- Taking out what was put in gives the map again. -/
theorem erase_insert_self {m : ExtTreeMap κ ν compare} {k : κ} (v : ν) (h : m[k]? = none) :
    (m.insert k v).erase k = m := by
  apply ExtTreeMap.ext_getElem?
  intro a
  rw [getElem?_erase, getElem?_insert]
  by_cases ha : k = a
  · subst ha; simp [h]
  · simp [ha]

/-- Putting back what was overwritten gives the map again. -/
theorem insert_insert_self {m : ExtTreeMap κ ν compare} {k : κ} (v : ν) {w : ν}
    (h : m[k]? = some w) : (m.insert k v).insert k w = m := by
  apply ExtTreeMap.ext_getElem?
  intro a
  rw [getElem?_insert, getElem?_insert]
  by_cases ha : k = a
  · subst ha; simp [h]
  · simp [ha]

/-- Putting an entry in changes nothing exactly where it is there. -/
theorem insert_eq_self_iff {m : ExtTreeMap κ ν compare} {k : κ} {v : ν} :
    m.insert k v = m ↔ m[k]? = some v := by
  constructor
  · intro h
    rw [← h, getElem?_insert, if_pos rfl]
  · intro h
    apply ExtTreeMap.ext_getElem?
    intro a
    rw [getElem?_insert]
    by_cases ha : k = a
    · subst ha; simp [h]
    · simp [ha]

theorem getElem?_foldl_insert_of_notMem {entries : List (κ × ν)} {k : κ}
    (h : k ∉ entries.map Prod.fst) (m : ExtTreeMap κ ν compare) :
    (entries.foldl (fun m e => m.insert e.1 e.2) m)[k]? = m[k]? := by
  induction entries generalizing m with
  | nil => rfl
  | cons e rest ih =>
    rw [List.map_cons, List.mem_cons, not_or] at h
    rw [List.foldl_cons, ih h.2, getElem?_insert, if_neg (Ne.symm h.1)]

/-- Entries for different keys are all there, and only then, where putting them in changes
nothing. -/
theorem foldl_insert_eq_self_iff {entries : List (κ × ν)} (hnodup : (entries.map Prod.fst).Nodup)
    {m : ExtTreeMap κ ν compare} :
    entries.foldl (fun m e => m.insert e.1 e.2) m = m ↔ ∀ e ∈ entries, m[e.1]? = some e.2 := by
  induction entries generalizing m with
  | nil => simp
  | cons e rest ih =>
    obtain ⟨hnew, hrest⟩ := List.nodup_cons.mp hnodup
    rw [List.foldl_cons, List.forall_mem_cons]
    constructor
    · intro h
      have he : m[e.1]? = some e.2 := by
        rw [← h, getElem?_foldl_insert_of_notMem hnew, getElem?_insert, if_pos rfl]
      rw [insert_eq_self_iff.mpr he] at h
      exact ⟨he, (ih hrest).mp h⟩
    · rintro ⟨he, hmore⟩
      rw [insert_eq_self_iff.mpr he]
      exact (ih hrest).mpr hmore

end Lib.Maps
