import MqStudio.Lib.Maps

/-!
# One request to each of several places

A change is sent to the places of a map, one after another, and the first that does not accept it
ends the walk.

* `onEach`: the walk, in which the reply of a place may be lost.
* `onEach_accepted`: where every place accepts, every place is changed.
* `onEach_refused`: where one of them refuses, the walk fails.
* `onEach_place`: each place is left as it was, or changed once, whatever happens.
-/

namespace Lib.Replicas

open Std Lib.Maps

universe u v w

variable {κ : Type u} {σ : Type v} {ε : Type w} [Ord κ] [TransOrd κ] [LawfulEqOrd κ] [DecidableEq κ]

/-- What comes back of a request: the answer, or nothing, where the request may have been carried
out all the same. -/
inductive Reply (ε : Type w) where
  | answered
  | lost (applied : Bool) (err : ε)

/-- A place after a request whose reply was lost. -/
def unheard (apply : σ → Except ε σ) (s : σ) : σ :=
  match apply s with
  | .ok changed => changed
  | .error _ => s

/-- The request to each of the places, until one does not accept it. -/
def onEach (apply : σ → Except ε σ) (replies : κ → Reply ε) :
    List κ → ExtTreeMap κ σ compare → ExtTreeMap κ σ compare × Option (κ × ε)
  | [], m => (m, none)
  | k :: ks, m =>
    match m[k]? with
    | none => onEach apply replies ks m
    | some s =>
      match replies k with
      | .lost applied err =>
          (if applied then m.insert k (unheard apply s) else m, some (k, err))
      | .answered =>
        match apply s with
        | .error err => (m, some (k, err))
        | .ok changed => onEach apply replies ks (m.insert k changed)

variable {apply : σ → Except ε σ} {replies : κ → Reply ε} {ks : List κ}
  {m : ExtTreeMap κ σ compare} {k : κ}

/-- **Where every place accepts**, the walk reports nothing and changes them all. -/
theorem onEach_accepted {change : σ → σ} (hnodup : ks.Nodup)
    (hreplies : ∀ k ∈ ks, replies k = .answered)
    (haccept : ∀ k ∈ ks, ∀ s, m[k]? = some s → apply s = .ok (change s)) :
    (onEach apply replies ks m).2 = none ∧ ∀ k, (onEach apply replies ks m).1[k]? =
      if k ∈ ks then m[k]?.map change else m[k]? := by
  induction ks generalizing m with
  | nil => exact ⟨rfl, fun k => by rw [if_neg List.not_mem_nil]; rfl⟩
  | cons a ks ih =>
    rw [List.nodup_cons] at hnodup
    have hlater : ∀ k ∈ ks, replies k = .answered := fun k hk =>
      hreplies k (List.mem_cons_of_mem a hk)
    cases hs : m[a]? with
    | none =>
      obtain ⟨hnone, hget⟩ := ih hnodup.2 hlater fun k hk =>
        haccept k (List.mem_cons_of_mem a hk)
      rw [onEach, hs]
      refine ⟨hnone, fun k => ?_⟩
      rw [hget]
      by_cases ha : k = a
      · subst ha
        rw [if_neg hnodup.1, if_pos List.mem_cons_self, hs]
        rfl
      · simp [ha]
    | some s =>
      have hok := haccept a List.mem_cons_self s hs
      have hnext : ∀ k ∈ ks, ∀ t, (m.insert a (change s))[k]? = some t →
          apply t = .ok (change t) := by
        intro k hk t ht
        have hne : a ≠ k := fun he => hnodup.1 (he ▸ hk)
        rw [getElem?_insert, if_neg hne] at ht
        exact haccept k (List.mem_cons_of_mem a hk) t ht
      obtain ⟨hnone, hget⟩ := ih hnodup.2 hlater hnext
      rw [onEach, hs]
      simp only [hreplies a List.mem_cons_self, hok]
      refine ⟨hnone, fun k => ?_⟩
      rw [hget, getElem?_insert]
      by_cases ha : a = k
      · subst ha
        rw [if_neg hnodup.1, if_pos rfl, if_pos List.mem_cons_self, hs]
        rfl
      · simp [ha, Ne.symm ha]

/-- **Where one of the places refuses**, the walk fails. -/
theorem onEach_refused (hnodup : ks.Nodup) {s : σ} {err : ε} (hk : k ∈ ks) (hs : m[k]? = some s)
    (hrefuse : apply s = .error err) : (onEach apply replies ks m).2 ≠ none := by
  induction ks generalizing m with
  | nil => exact absurd hk List.not_mem_nil
  | cons a ks ih =>
    rw [List.nodup_cons] at hnodup
    rw [onEach]
    by_cases ha : a = k
    · subst ha
      simp only [hs]
      split
      · exact Option.some_ne_none _
      · rw [hrefuse]
        exact Option.some_ne_none _
    · have hlater : k ∈ ks := (List.mem_cons.mp hk).resolve_left (Ne.symm ha)
      split
      · exact ih hnodup.2 hlater hs
      · split
        · exact Option.some_ne_none _
        · split
          · exact Option.some_ne_none _
          · refine ih hnodup.2 hlater ?_
            rw [getElem?_insert, if_neg ha]
            exact hs

/-- A place that is not asked is left as it was. -/
theorem onEach_other (hk : k ∉ ks) : (onEach apply replies ks m).1[k]? = m[k]? := by
  induction ks generalizing m with
  | nil => rfl
  | cons a ks ih =>
    rw [List.mem_cons, not_or] at hk
    have hother : ∀ s : σ, (m.insert a s)[k]? = m[k]? := fun s => by
      rw [getElem?_insert, if_neg (Ne.symm hk.1)]
    rw [onEach]
    split
    · exact ih hk.2
    · split
      · split
        · exact hother _
        · rfl
      · split
        · rfl
        · rw [ih hk.2, hother]

/-- **Each place is left as it was, or changed once.** -/
theorem onEach_place (hnodup : ks.Nodup) (k : κ) :
    (onEach apply replies ks m).1[k]? = m[k]? ∨
      ∃ s changed, m[k]? = some s ∧ apply s = .ok changed ∧
        (onEach apply replies ks m).1[k]? = some changed := by
  induction ks generalizing m with
  | nil => exact .inl rfl
  | cons a ks ih =>
    rw [List.nodup_cons] at hnodup
    rw [onEach]
    split
    · exact ih hnodup.2
    · rename_i s hs
      split
      · rename_i applied err hreply
        cases applied with
        | false => exact .inl rfl
        | true =>
          simp only [if_true, getElem?_insert]
          by_cases ha : a = k
          · subst ha
            rw [if_pos rfl, hs, unheard]
            cases happly : apply s with
            | error _ => exact .inl rfl
            | ok changed => exact .inr ⟨s, changed, rfl, happly, rfl⟩
          · rw [if_neg ha]
            exact .inl rfl
      · split
        · exact .inl rfl
        · rename_i changed happly
          by_cases ha : a = k
          · subst ha
            refine .inr ⟨s, changed, hs, happly, ?_⟩
            rw [onEach_other hnodup.1, getElem?_insert, if_pos rfl]
          · have hget : (m.insert a changed)[k]? = m[k]? := by
              rw [getElem?_insert, if_neg ha]
            have hstep := ih hnodup.2 (m := m.insert a changed)
            rw [hget] at hstep
            exact hstep

end Lib.Replicas
