import MqStudio.Lib.Maps

/-!
# Timelines

Samples in the order of their times, at most one of each time.

* `within`, `inOrder`: the samples of a window, the last of each time, and a map of them as a list.
* `mem_inOrder_within`: what is left of a timeline is what lies in the window.
* `length_le`: a window of `n` steps has at most `n` samples.
-/

namespace Lib.Timeline

open Std (ExtTreeMap)
open Lib.Maps

universe u

variable {σ : Type u} (time : σ → Int)

/-- The times go up. -/
def Increasing (l : List σ) : Prop := l.Pairwise fun a b => time a < time b

/-- The samples from `lo` to `hi` by their time, a later one in the place of an earlier one. -/
def within (lo hi : Int) (l : List σ) : ExtTreeMap Int σ compare :=
  l.foldl (fun m a => if time a < lo ∨ hi < time a then m else m.insert (time a) a) ∅

/-- The samples of a map, by time. -/
def inOrder (m : ExtTreeMap Int σ compare) : List σ :=
  (m.keys.mergeSort (· ≤ ·)).filterMap (m[·]?)

variable {time} {lo hi : Int} {l : List σ} {m : ExtTreeMap Int σ compare}

/-! ### Maps and lists -/

/-- Each sample is under its own time. -/
def Keyed (time : σ → Int) (m : ExtTreeMap Int σ compare) : Prop :=
  ∀ t a, m[t]? = some a → time a = t

theorem mem_inOrder (hm : Keyed time m) {a : σ} : a ∈ inOrder m ↔ m[time a]? = some a := by
  rw [inOrder, List.mem_filterMap]
  constructor
  · rintro ⟨t, _, hat⟩
    rwa [hm t a hat]
  · intro ha
    refine ⟨time a, List.mem_mergeSort.mpr ?_, ha⟩
    rw [ExtTreeMap.mem_keys, ExtTreeMap.mem_iff_isSome_getElem?, ha]
    rfl

theorem increasing_inOrder (hm : Keyed time m) : Increasing time (inOrder m) := by
  have hkeys : (m.keys.mergeSort (· ≤ ·)).Pairwise fun s t : Int => s < t := by
    have hle : (m.keys.mergeSort (· ≤ ·)).Pairwise fun s t : Int => s ≤ t := by
      refine (List.pairwise_mergeSort ?_ ?_ m.keys).imp fun h => of_decide_eq_true h
      · intro a b c hab hbc
        simp only [decide_eq_true_eq] at hab hbc ⊢
        exact Int.le_trans hab hbc
      · intro a b
        simp only [Bool.or_eq_true, decide_eq_true_eq]
        exact Int.le_total a b
    have hne : (m.keys.mergeSort (· ≤ ·)).Nodup :=
      (List.mergeSort_perm _ _).nodup_iff.mpr ExtTreeMap.nodup_keys
    exact hle.imp₂ (fun _ _ hle hne => Int.lt_iff_le_and_ne.mpr ⟨hle, hne⟩) hne
  refine List.Pairwise.filterMap _ ?_ hkeys
  intro s t hst a ha b hb
  rw [hm s a ha, hm t b hb]
  exact hst

/-- A timeline is known by its samples. -/
theorem Increasing.ext {k : List σ} (hl : Increasing time l) (hk : Increasing time k)
    (h : ∀ a, a ∈ l ↔ a ∈ k) : l = k := by
  have hnodup : ∀ {j : List σ}, Increasing time j → j.Nodup := by
    intro j hj
    refine hj.imp ?_
    rintro a _ hlt rfl
    exact Int.lt_irrefl _ hlt
  have hperm : l.Perm k := (List.perm_ext_iff_of_nodup (hnodup hl) (hnodup hk)).mpr h
  exact hperm.eq_of_pairwise (fun _ _ _ _ hab hba => absurd hab (Int.lt_asymm hba)) hl hk

/-! ### Windows -/

theorem within_concat (l : List σ) (a : σ) : within time lo hi (l ++ [a]) =
    if time a < lo ∨ hi < time a then within time lo hi l
    else (within time lo hi l).insert (time a) a := by
  rw [within, List.foldl_append, List.foldl_cons, List.foldl_nil, ← within]

/-- What is left of a list lies in the window. -/
theorem of_getElem?_within {t : Int} {a : σ} (h : (within time lo hi l)[t]? = some a) :
    a ∈ l ∧ time a = t ∧ lo ≤ t ∧ t ≤ hi := by
  induction l using List.reverseRecOn with
  | nil => rw [within, List.foldl_nil, ExtTreeMap.getElem?_empty] at h; nomatch h
  | append_singleton l b ih =>
    rw [within_concat] at h
    split at h
    case isTrue =>
      obtain ⟨ha, hrest⟩ := ih h
      exact ⟨List.mem_append_left _ ha, hrest⟩
    case isFalse hin =>
      rw [getElem?_insert] at h
      split at h
      case isTrue hb =>
        obtain rfl := Option.some.inj h
        exact ⟨by simp, hb, by omega⟩
      case isFalse =>
        obtain ⟨ha, hrest⟩ := ih h
        exact ⟨List.mem_append_left _ ha, hrest⟩

theorem keyed_within : Keyed time (within time lo hi l) := fun _ _ h => (of_getElem?_within h).2.1

/-- All of a timeline that lies in the window is left. -/
theorem getElem?_within (hl : Increasing time l) {a : σ} (ha : a ∈ l) (hlo : lo ≤ time a)
    (hhi : time a ≤ hi) : (within time lo hi l)[time a]? = some a := by
  induction l using List.reverseRecOn with
  | nil => nomatch ha
  | append_singleton l b ih =>
    obtain ⟨hbefore, _, hlt⟩ := List.pairwise_append.mp hl
    rw [within_concat]
    rcases List.mem_append.mp ha with ha | ha
    · have hab : time a < time b := hlt a ha b List.mem_cons_self
      split
      case isTrue => exact ih hbefore ha
      case isFalse => rw [getElem?_insert, if_neg (by omega)]; exact ih hbefore ha
    · obtain rfl := List.mem_singleton.mp ha
      rw [if_neg (by omega), getElem?_insert, if_pos rfl]

/-- **What is left of a timeline** is what lies in the window. -/
theorem mem_inOrder_within (hl : Increasing time l) {a : σ} :
    a ∈ inOrder (within time lo hi l) ↔ a ∈ l ∧ lo ≤ time a ∧ time a ≤ hi := by
  rw [mem_inOrder keyed_within]
  constructor
  · intro h
    obtain ⟨ha, _, hin⟩ := of_getElem?_within h
    exact ⟨ha, hin⟩
  · rintro ⟨ha, hlo, hhi⟩
    exact getElem?_within hl ha hlo hhi

/-! ### Lengths -/

/-- **A window of `n` steps** has at most `n` samples, where the times are whole steps. -/
theorem length_le {n : ℕ} {step hi : Int} (hstep : 0 < step) (hhi : step ∣ hi)
    (hl : Increasing time l)
    (hin : ∀ a ∈ l, step ∣ time a ∧ hi - (n - 1) * step ≤ time a ∧ time a ≤ hi) :
    l.length ≤ n := by
  -- how many steps before the end of the window each sample is
  let back : σ → Int := fun a => (hi - time a) / step
  have hback : ∀ a ∈ l, back a * step = hi - time a := fun a ha =>
    Int.ediv_mul_cancel (Int.dvd_sub hhi (hin a ha).1)
  have hnodup : (l.map back).Nodup := by
    refine List.pairwise_map.mpr (hl.imp_of_mem ?_)
    intro a b ha hb hab heq
    have := hback a ha
    rw [heq, hback b hb] at this
    omega
  have hrange : ∀ k ∈ l.map back, k ∈ Finset.Ico (0 : Int) n := by
    intro k hk
    obtain ⟨a, ha, rfl⟩ := List.mem_map.mp hk
    obtain ⟨_, hlow, hhigh⟩ := hin a ha
    rw [Finset.mem_Ico]
    refine ⟨Int.ediv_nonneg (by omega) hstep.le, Int.ediv_lt_of_lt_mul hstep ?_⟩
    linarith
  have hsubset : (l.map back).toFinset ⊆ Finset.Ico (0 : Int) n :=
    fun k hk => hrange k (List.mem_toFinset.mp hk)
  have hcard := Finset.card_le_card hsubset
  rwa [List.toFinset_card_of_nodup hnodup, List.length_map, Int.card_Ico, sub_zero,
    Int.toNat_natCast] at hcard

end Lib.Timeline
