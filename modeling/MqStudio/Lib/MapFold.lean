import MqStudio.Lib.Maps

/-!
# Folding over a map, one key at a time

A fold over a map whose step for a key changes nothing but what is kept under that
key.  What is kept is read through `get`, so that the state of the fold may be a map
or hold one.

* `get_foldl_at`: what one key decides is decided once, or never.
* `get_foldl`: under a key of the map the step is taken once; elsewhere nothing changes.
-/

namespace Lib.Maps

open Std

universe u v w x

variable {κ : Type u} {ν : Type v} {σ : Type w} {ω : Type x} [DecidableEq κ]

section At

variable {get : σ → ω} {step : σ → κ → ν → σ} {a : κ} {f : ν → ω → ω}

theorem get_foldl_of_not_mem
    (hstep : ∀ s k v, get (step s k v) = if k = a then f v (get s) else get s)
    {l : List (κ × ν)} (h : ∀ e ∈ l, e.1 ≠ a) (s : σ) :
    get (l.foldl (fun s e => step s e.1 e.2) s) = get s := by
  induction l generalizing s with
  | nil => rfl
  | cons e l ih =>
    rw [List.foldl_cons, ih (fun e he => h e (List.mem_cons_of_mem _ he)), hstep,
      if_neg (h e List.mem_cons_self)]

theorem get_foldl_of_mem
    (hstep : ∀ s k v, get (step s k v) = if k = a then f v (get s) else get s)
    {l : List (κ × ν)} (hl : (l.map (·.1)).Nodup) {v : ν} (h : (a, v) ∈ l) (s : σ) :
    get (l.foldl (fun s e => step s e.1 e.2) s) = f v (get s) := by
  induction l generalizing s with
  | nil => cases h
  | cons e l ih =>
    obtain ⟨he, hl⟩ := List.nodup_cons.mp hl
    rw [List.foldl_cons]
    rcases List.mem_cons.mp h with rfl | h
    · have hrest : ∀ e ∈ l, e.1 ≠ a := fun e hmem heq => he (List.mem_map.mpr ⟨e, hmem, heq⟩)
      rw [get_foldl_of_not_mem hstep hrest, hstep, if_pos rfl]
    · have hne : e.1 ≠ a := fun heq => he (List.mem_map.mpr ⟨(a, v), h, heq.symm⟩)
      rw [ih hl h, hstep, if_neg hne]

variable [Ord κ] [TransOrd κ] [LawfulEqOrd κ]

variable (get step f) in
/-- What only the step for one key changes. -/
theorem get_foldl_at
    (hstep : ∀ s k v, get (step s k v) = if k = a then f v (get s) else get s)
    (m : ExtTreeMap κ ν compare) (s : σ) :
    get (m.foldl step s) = (m[a]?.elim (get s) fun v => f v (get s)) := by
  rw [ExtTreeMap.foldl_eq_foldl_toList]
  cases hm : m[a]? with
  | some v =>
    refine get_foldl_of_mem hstep ?_ (ExtTreeMap.mem_toList_iff_getElem?_eq_some.mpr hm) s
    rw [ExtTreeMap.map_fst_toList_eq_keys]
    exact ExtTreeMap.nodup_keys
  | none =>
    refine get_foldl_of_not_mem hstep (fun e he heq => ?_) s
    have hsome := ExtTreeMap.mem_toList_iff_getElem?_eq_some.mp (heq ▸ he : (a, e.2) ∈ m.toList)
    rw [hm] at hsome
    cases hsome

end At

variable (get : σ → κ → ω) (step : σ → κ → ν → σ) (f : κ → ν → ω → ω)
  [Ord κ] [TransOrd κ] [LawfulEqOrd κ]

/-- **A fold read at one key**: the step for that key, where the map holds it. -/
theorem get_foldl
    (hstep : ∀ s k v a, get (step s k v) a = if k = a then f k v (get s k) else get s a)
    (m : ExtTreeMap κ ν compare) (s : σ) (a : κ) :
    get (m.foldl step s) a = (m[a]?.elim (get s a) fun v => f a v (get s a)) := by
  refine get_foldl_at (fun s => get s a) step (f a) (fun s k v => ?_) m s
  rw [hstep]
  by_cases hk : k = a
  · rw [hk]
  · rw [if_neg hk, if_neg hk]

end Lib.Maps
