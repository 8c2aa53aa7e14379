import Mathlib

/-!
# Trying places until one succeeds

An object that several places may hold is to be taken away, and the places are tried one after
another until the first attempt that succeeds.

* `untilFirst`: the walk.
* `Orders`: the orders a walk may take, each place the first of one of them.
* `gone_iff`: what is taken away in every order is what a success anywhere takes away.
* `free_iff`: the order does not matter exactly if no success leaves work for the others.
-/

namespace Lib.Attempts

universe u v

variable {κ : Type u} {ε : Type v} [DecidableEq κ]

/-- What becomes of an attempt at a place: one that succeeds has taken the object away, and one that
fails may have. -/
structure Attempt (ε : Type v) where
  err : Option ε
  gone : Bool
  done : err = none → gone = true

/-- Which places hold the object after an attempt at one. -/
def takeAway (attempt : κ → Attempt ε) (k : κ) (holds : κ → Bool) : κ → Bool :=
  Function.update holds k (holds k && !(attempt k).gone)

/-- Attempts until the first success; else the error of the last one, where there is one. -/
def untilFirst (attempt : κ → Attempt ε) :
    List κ → (κ → Bool) → Option ε → (κ → Bool) × Except (Option ε) Unit
  | [], holds, last => (holds, .error last)
  | k :: ks, holds, _ =>
    match (attempt k).err with
    | none => (takeAway attempt k holds, .ok ())
    | some err => untilFirst attempt ks (takeAway attempt k holds) (some err)

variable {attempt : κ → Attempt ε} {holds : κ → Bool} {ks : List κ} {last : Option ε} {c : κ}

theorem takeAway_of_ne {k : κ} (h : c ≠ k) : takeAway attempt k holds c = holds c :=
  Function.update_of_ne h _ _

theorem takeAway_self (k : κ) : takeAway attempt k holds k = (holds k && !(attempt k).gone) :=
  Function.update_self k _ _

/-- The walk succeeds exactly if an attempt does. -/
theorem untilFirst_ok_iff : (untilFirst attempt ks holds last).2 = .ok () ↔
    ∃ k ∈ ks, (attempt k).err = none := by
  induction ks generalizing holds last with
  | nil => simp [untilFirst]
  | cons k ks ih =>
    rw [untilFirst]
    cases herr : (attempt k).err with
    | none => exact iff_of_true rfl ⟨k, List.mem_cons_self, herr⟩
    | some err =>
      dsimp only
      rw [ih, List.exists_mem_cons_iff, herr]
      simp

/-- What is not held is not held afterwards. -/
theorem untilFirst_of_not_held (h : holds c = false) :
    (untilFirst attempt ks holds last).1 c = false := by
  have hstep : ∀ k, takeAway attempt k holds c = false := fun k => by
    by_cases hk : c = k
    · rw [← hk, takeAway_self, h, Bool.false_and]
    · rw [takeAway_of_ne hk, h]
  induction ks generalizing holds last with
  | nil => exact h
  | cons k ks ih =>
    rw [untilFirst]
    split
    · exact hstep k
    · refine ih (hstep k) fun k' => ?_
      by_cases hk : c = k'
      · rw [← hk, takeAway_self, hstep, Bool.false_and]
      · rw [takeAway_of_ne hk, hstep]

/-- A place where no attempt takes anything away stays as it is. -/
theorem untilFirst_of_kept (h : ∀ k ∈ ks, k = c → holds c = true → (attempt c).gone = false) :
    (untilFirst attempt ks holds last).1 c = holds c := by
  have hstep : ∀ k ∈ ks, takeAway attempt k holds c = holds c := by
    intro k hk
    by_cases heq : c = k
    · rw [← heq, takeAway_self]
      cases hheld : holds c with
      | false => rfl
      | true => rw [h k hk heq.symm hheld]; rfl
    · exact takeAway_of_ne heq
  induction ks generalizing holds last with
  | nil => rfl
  | cons k ks ih =>
    have hk := hstep k List.mem_cons_self
    rw [untilFirst]
    split
    · exact hk
    · rw [ih, hk]
      · intro k' hk' heq hheld
        exact h k' (List.mem_cons_of_mem k hk') heq (hk ▸ hheld)
      · intro k' hk'
        by_cases heq : c = k'
        · rw [← heq, takeAway_self, hk]
          cases hheld : holds c with
          | false => rfl
          | true => rw [h k' (List.mem_cons_of_mem k hk') heq.symm hheld]; rfl
        · exact takeAway_of_ne heq

/-- A walk that begins with a success changes that place only. -/
theorem untilFirst_cons_of_none {k : κ} (h : (attempt k).err = none) :
    (untilFirst attempt (k :: ks) holds last).1 = takeAway attempt k holds := by
  rw [untilFirst, h]

/-- Without a success every place is tried. -/
theorem untilFirst_of_all_fail (hnodup : ks.Nodup) (h : ∀ k ∈ ks, (attempt k).err ≠ none) :
    (untilFirst attempt ks holds last).1 c =
      if c ∈ ks then holds c && !(attempt c).gone else holds c := by
  induction ks generalizing holds last with
  | nil => rfl
  | cons k ks ih =>
    obtain ⟨hnew, hrest⟩ := List.nodup_cons.mp hnodup
    rw [untilFirst]
    split
    · rename_i hnone
      exact absurd hnone (h k List.mem_cons_self)
    · rw [ih hrest fun k' hk' => h k' (List.mem_cons_of_mem k hk')]
      by_cases heq : c = k
      · rw [heq, if_neg hnew, if_pos List.mem_cons_self, takeAway_self]
      · rw [takeAway_of_ne heq]
        simp [heq]

/-- The place of the only success holds nothing afterwards. -/
theorem untilFirst_of_only {k : κ} (hk : k ∈ ks) (hnone : (attempt k).err = none)
    (honly : ∀ c ∈ ks, (attempt c).err = none → c = k) :
    (untilFirst attempt ks holds last).1 k = false := by
  induction ks generalizing holds last with
  | nil => exact absurd hk List.not_mem_nil
  | cons a ks ih =>
    rw [untilFirst]
    split
    · rename_i hfirst
      dsimp only
      rw [honly a List.mem_cons_self hfirst, takeAway_self, (attempt k).done hnone, Bool.not_true,
        Bool.and_false]
    · rename_i err hfails
      have hne : k ≠ a := by
        rintro rfl
        rw [hnone] at hfails
        cases hfails
      exact ih ((List.mem_cons.mp hk).resolve_left hne) fun c hc =>
        honly c (List.mem_cons_of_mem a hc)

/-- A success leaves no work for the other places. -/
def Alone (attempt : κ → Attempt ε) (holds : κ → Bool) (ks : List κ) : Prop :=
  ∀ k ∈ ks, (attempt k).err = none → ∀ c ∈ ks, c ≠ k → holds c = true → (attempt c).gone = false

/-- Then a walk changes the place of the success only. -/
theorem untilFirst_of_alone {k : κ} (hk : k ∈ ks) (hnone : (attempt k).err = none)
    (halone : Alone attempt holds ks) :
    (untilFirst attempt ks holds last).1 = Function.update holds k false := by
  funext c
  by_cases heq : c = k
  · rw [heq, Function.update_self]
    cases hheld : holds k with
    | false => exact untilFirst_of_not_held hheld
    | true =>
      refine untilFirst_of_only hk hnone fun a ha hsuccess => ?_
      by_contra hne
      have hstays := halone a ha hsuccess k hk (Ne.symm hne) hheld
      rw [(attempt k).done hnone] at hstays
      cases hstays
  · rw [Function.update_of_ne heq]
    exact untilFirst_of_kept fun k' hk' hsame hheld =>
      halone k hk hnone c (hsame ▸ hk') heq hheld

/-! ### Every order -/

/-- The orders a walk may take: of the same places, any of which may be the first. -/
structure Orders (P : List κ → Prop) : Prop where
  nodup : ∀ ks, P ks → ks.Nodup
  perm : ∀ ks ks', P ks → P ks' → ks.Perm ks'
  first : ∀ ks k, P ks → k ∈ ks → ∃ rest, P (k :: rest)

variable {P : List κ → Prop}

/-- Whether a walk succeeds does not depend on its order. -/
theorem ok_congr (hP : Orders P) {ks' : List κ} (h : P ks) (h' : P ks') :
    (untilFirst attempt ks holds last).2 = .ok () ↔
      (untilFirst attempt ks' holds last).2 = .ok () := by
  rw [untilFirst_ok_iff, untilFirst_ok_iff]
  exact exists_congr fun k => and_congr_left fun _ => (hP.perm ks ks' h h').mem_iff

/-- **Every walk that succeeds leaves nothing** in some places exactly if none of them, but the one
of the success, held anything. -/
theorem gone_iff (hP : Orders P) (listed : κ → Prop) :
    (∀ ks, P ks → (untilFirst attempt ks holds last).2 = .ok () → ∀ c, listed c →
        (untilFirst attempt ks holds last).1 c = false) ↔
      ∀ ks, P ks → ∀ k ∈ ks, (attempt k).err = none → ∀ c, listed c → c ≠ k → holds c = false := by
  constructor
  · intro h ks hks k hk hnone c hc hne
    obtain ⟨rest, hfirst⟩ := hP.first ks k hks hk
    have hok : (untilFirst attempt (k :: rest) holds last).2 = .ok () :=
      untilFirst_ok_iff.mpr ⟨k, List.mem_cons_self, hnone⟩
    have hgone := h _ hfirst hok c hc
    rwa [untilFirst_cons_of_none hnone, takeAway_of_ne hne] at hgone
  · intro h ks hks hok c hc
    obtain ⟨k, hk, hnone⟩ := untilFirst_ok_iff.mp hok
    by_cases hother : ∃ a ∈ ks, (attempt a).err = none ∧ a ≠ c
    · obtain ⟨a, ha, hsuccess, hne⟩ := hother
      exact untilFirst_of_not_held (h ks hks a ha hsuccess c hc (Ne.symm hne))
    · have honly : ∀ a ∈ ks, (attempt a).err = none → a = c := fun a ha hsuccess => by
        by_contra hne
        exact hother ⟨a, ha, hsuccess, hne⟩
      have hkc := honly k hk hnone
      exact untilFirst_of_only (hkc ▸ hk) (hkc ▸ hnone) honly

/-- **The order does not matter** exactly if a success leaves no work for the others. -/
theorem free_iff (hP : Orders P) :
    (∀ ks ks', P ks → P ks' →
        (untilFirst attempt ks holds last).1 = (untilFirst attempt ks' holds last).1) ↔
      ∀ ks, P ks → Alone attempt holds ks := by
  constructor
  · intro h ks hks k hk hnone c hc hne hheld
    obtain ⟨rest, hfirst⟩ := hP.first ks k hks hk
    obtain ⟨rest', hother⟩ := hP.first ks c hks hc
    have hsame := congrFun (h _ _ hfirst hother) c
    rw [untilFirst_cons_of_none hnone, takeAway_of_ne hne, hheld] at hsame
    by_contra hgone
    have hgone' : (attempt c).gone = true := by simpa using hgone
    have haway : takeAway attempt c holds c = false := by
      rw [takeAway_self, hgone', Bool.not_true, Bool.and_false]
    rw [untilFirst] at hsame
    split at hsame
    · exact absurd (hsame.trans haway) (by decide)
    · rw [untilFirst_of_not_held haway] at hsame
      cases hsame
  · intro h ks ks' hks hks'
    by_cases hsome : ∃ k ∈ ks, (attempt k).err = none
    · obtain ⟨k, hk, hnone⟩ := hsome
      rw [untilFirst_of_alone hk hnone (h ks hks),
        untilFirst_of_alone ((hP.perm ks ks' hks hks').mem_iff.mp hk) hnone (h ks' hks')]
    · have hfail : ∀ k ∈ ks, (attempt k).err ≠ none := fun k hk hnone => hsome ⟨k, hk, hnone⟩
      have hfail' : ∀ k ∈ ks', (attempt k).err ≠ none := fun k hk =>
        hfail k ((hP.perm ks ks' hks hks').mem_iff.mpr hk)
      funext c
      rw [untilFirst_of_all_fail (hP.nodup ks hks) hfail,
        untilFirst_of_all_fail (hP.nodup ks' hks') hfail']
      simp only [(hP.perm ks ks' hks hks').mem_iff]

end Lib.Attempts
