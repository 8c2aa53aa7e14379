import MqStudio.Lib.Replicas

/-!
# Records that are replaced whole

Several places keep records by name, and a request to one of them puts a record in the place of the
one it has, or puts it there where it has none.

* `putAll`: the same record to several places, whatever becomes of the single requests.
* `OnlyAsked`: a part of each record that was there is kept, and nothing else changes.
* `onlyAsked_putAll_iff`: that is so exactly if every place has a record with that part already.
-/

namespace Lib.Upsert

open Lib.Replicas (Reply)

universe u v w x y

variable {κ : Type u} {ν : Type v} {α : Type w} {ε : Type x} {ρ : Type y} [DecidableEq κ]
  [DecidableEq ν]

/-- The records of each place. -/
abbrev Places (κ : Type u) (ν : Type v) (α : Type w) := κ → ν → Option α

def put (places : Places κ ν α) (k : κ) (name : ν) (record : α) : Places κ ν α :=
  Function.update places k (Function.update (places k) name (some record))

/-- The record to each of the places, with the requests that failed. -/
def putAll (name : ν) (record : α) (replies : κ → Reply ε) :
    List κ → Places κ ν α → Places κ ν α × List (κ × ε)
  | [], places => (places, [])
  | k :: ks, places =>
    match replies k with
    | .answered => putAll name record replies ks (put places k name record)
    | .lost applied err =>
      let changed := if applied then put places k name record else places
      let rest := putAll name record replies ks changed
      (rest.1, (k, err) :: rest.2)

variable {name : ν} {record : α} {replies : κ → Reply ε} {ks : List κ} {places : Places κ ν α}

theorem put_self (k : κ) : put places k name record k name = some record := by
  simp [put]

theorem put_of_ne {k k' : κ} {name' : ν} (h : ¬(k' = k ∧ name' = name)) :
    put places k name record k' name' = places k' name' := by
  by_cases hk : k' = k
  · subst hk
    have hname : name' ≠ name := fun he => h ⟨rfl, he⟩
    simp [put, hname]
  · simp [put, hk]

/-- No request fails exactly if every one is answered. -/
theorem failures_eq_nil_iff :
    (putAll name record replies ks places).2 = [] ↔ ∀ k ∈ ks, replies k = .answered := by
  induction ks generalizing places with
  | nil => simp [putAll]
  | cons k ks ih =>
    rw [putAll, List.forall_mem_cons]
    cases hreply : replies k with
    | answered => simp [ih]
    | lost applied err => simp

/-- Requests that are answered leave the record in each of the places. -/
theorem putAll_answered (h : ∀ k ∈ ks, replies k = .answered) (k : κ) (name' : ν) :
    (putAll name record replies ks places).1 k name' =
      if k ∈ ks ∧ name' = name then some record else places k name' := by
  induction ks generalizing places with
  | nil => simp [putAll]
  | cons a ks ih =>
    rw [putAll, h a List.mem_cons_self]
    dsimp only
    rw [ih fun k hk => h k (List.mem_cons_of_mem a hk)]
    by_cases hlater : k ∈ ks ∧ name' = name
    · rw [if_pos hlater, if_pos ⟨List.mem_cons_of_mem a hlater.1, hlater.2⟩]
    · rw [if_neg hlater]
      by_cases hnow : k = a ∧ name' = name
      · obtain ⟨rfl, rfl⟩ := hnow
        rw [if_pos ⟨List.mem_cons_self, rfl⟩, put_self]
      · have hnever : ¬(k ∈ a :: ks ∧ name' = name) := by
          rw [List.mem_cons]
          tauto
        rw [if_neg hnever, put_of_ne hnow]

/-- In the places that had a record its `rest` is kept; in every other place nothing changes. -/
structure OnlyAsked (rest : α → ρ) (name : ν) (ks : List κ) (before after : Places κ ν α) :
    Prop where
  held : ∀ k ∈ ks, ∀ old, before k name = some old →
    ∃ new, after k name = some new ∧ rest new = rest old
  others : ∀ k, ¬(k ∈ ks ∧ before k name ≠ none) → after k = before k

/-- **Replacing records** changes only what was asked exactly if each place has a record, whose rest
is that of the one it is sent. -/
theorem onlyAsked_putAll_iff (rest : α → ρ) (h : ∀ k ∈ ks, replies k = .answered) :
    OnlyAsked rest name ks places (putAll name record replies ks places).1 ↔
      ∀ k ∈ ks, ∃ old, places k name = some old ∧ rest old = rest record := by
  constructor
  · intro hright k hk
    have hafter : (putAll name record replies ks places).1 k name =
        if k ∈ ks ∧ name = name then some record else places k name := putAll_answered h k name
    rw [if_pos ⟨hk, rfl⟩] at hafter
    cases hold : places k name with
    | none =>
      have hsame := congrFun (hright.others k fun hheld => hheld.2 hold) name
      rw [hafter, hold] at hsame
      cases hsame
    | some old =>
      obtain ⟨new, hnew, hrest⟩ := hright.held k hk old hold
      rw [hafter] at hnew
      exact ⟨old, rfl, hrest.symm.trans (congrArg rest (Option.some.inj hnew).symm)⟩
  · intro hall
    refine ⟨fun k hk old hold => ⟨record, ?_, ?_⟩, fun k hnot => funext fun name' => ?_⟩
    · rw [putAll_answered h, if_pos ⟨hk, rfl⟩]
    · obtain ⟨old', hold', hrest⟩ := hall k hk
      rw [hold] at hold'
      rw [← hrest, Option.some.inj hold']
    · rw [putAll_answered h, if_neg]
      rintro ⟨hk, rfl⟩
      obtain ⟨old, hold, -⟩ := hall k hk
      exact hnot ⟨hk, by rw [hold]; exact Option.some_ne_none old⟩

end Lib.Upsert
