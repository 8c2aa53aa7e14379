import Mathlib

/-!
# Reading a log from a position on

A log of entries with increasing keys is handed on in batches: each call names
the position the call before reached, and gets the entries after it and a new
position.  `Covers key log lost lo hi got` says that nothing between the two
positions is unaccounted for: an entry of the log is either among `got`, in
order and once, or its key is listed in `lost`.

* `Covers.trans`: what two calls in a row account for, one after the other does.
* `Covers.grow`: a log may grow behind the position.
* `Covers.take`, `Covers.read`: a call that hands on the first entries after the
  position.
* `Covers.skip`: a call that lists what it moves over.
-/

namespace Lib.Tail

universe u v

variable {α : Type u} {κ : Type v} {key : α → κ}

/-- The position after a batch: the key of its last entry. -/
def reached (key : α → κ) (lo : κ) (got : List α) : κ := (got.getLast?.map key).getD lo

@[simp] theorem reached_nil (lo : κ) : reached key lo [] = lo := rfl

@[simp] theorem reached_concat (lo : κ) (got : List α) (a : α) :
    reached key lo (got ++ [a]) = key a := by
  simp [reached]

variable {log new got got' : List α} {lost lost' : List κ} {lo mid hi : κ}

variable (key lo) in
theorem reached_mem (h : got ≠ []) : ∃ a ∈ got, reached key lo got = key a := by
  induction got using List.reverseRecOn with
  | nil => exact absurd rfl h
  | append_singleton got b _ => exact ⟨b, by simp, reached_concat lo got b⟩

/-- Where a batch ends does not depend on where it started. -/
theorem reached_of_ne_nil (h : got ≠ []) : reached key lo got = reached key mid got := by
  induction got using List.reverseRecOn with
  | nil => exact absurd rfl h
  | append_singleton got b _ => rw [reached_concat, reached_concat]

variable [LinearOrder κ]

/-- Between two positions every entry of the log is handed on once, in order, or listed as lost. -/
structure Covers (key : α → κ) (log : List α) (lost : List κ) (lo hi : κ) (got : List α) :
    Prop where
  le : lo ≤ hi
  sorted : got.Pairwise fun a b => key a < key b
  within : ∀ a ∈ got, lo < key a ∧ key a ≤ hi
  genuine : ∀ a ∈ got, a ∈ log
  lost_sorted : lost.Pairwise (· < ·)
  lost_within : ∀ k ∈ lost, lo < k ∧ k ≤ hi
  disjoint : ∀ a ∈ got, key a ∉ lost
  complete : ∀ a ∈ log, lo < key a → key a ≤ hi → a ∈ got ∨ key a ∈ lost

theorem Covers.refl (lo : κ) : Covers key log [] lo lo [] where
  le := le_rfl
  sorted := .nil
  within := by simp
  genuine := by simp
  lost_sorted := .nil
  lost_within := by simp
  disjoint := by simp
  complete := fun _ _ hlo hhi => absurd hhi (not_le.mpr hlo)

/-- **Calls in a row** account for both stretches. -/
theorem Covers.trans (h : Covers key log lost lo mid got) (h' : Covers key log lost' mid hi got') :
    Covers key log (lost ++ lost') lo hi (got ++ got') where
  le := h.le.trans h'.le
  sorted := by
    refine List.pairwise_append.mpr ⟨h.sorted, h'.sorted, fun a ha b hb => ?_⟩
    exact (h.within a ha).2.trans_lt (h'.within b hb).1
  within := by
    intro a ha
    rcases List.mem_append.mp ha with ha | ha
    · exact ⟨(h.within a ha).1, (h.within a ha).2.trans h'.le⟩
    · exact ⟨h.le.trans_lt (h'.within a ha).1, (h'.within a ha).2⟩
  genuine := fun a ha => (List.mem_append.mp ha).elim (h.genuine a) (h'.genuine a)
  lost_sorted := by
    refine List.pairwise_append.mpr ⟨h.lost_sorted, h'.lost_sorted, fun a ha b hb => ?_⟩
    exact (h.lost_within a ha).2.trans_lt (h'.lost_within b hb).1
  lost_within := by
    intro k hk
    rcases List.mem_append.mp hk with hk | hk
    · exact ⟨(h.lost_within k hk).1, (h.lost_within k hk).2.trans h'.le⟩
    · exact ⟨h.le.trans_lt (h'.lost_within k hk).1, (h'.lost_within k hk).2⟩
  disjoint := by
    intro a ha hl
    rcases List.mem_append.mp ha with ha | ha <;> rcases List.mem_append.mp hl with hl | hl
    · exact h.disjoint a ha hl
    · exact absurd (h.within a ha).2 (not_le.mpr (h'.lost_within _ hl).1)
    · exact absurd (h.lost_within _ hl).2 (not_le.mpr (h'.within a ha).1)
    · exact h'.disjoint a ha hl
  complete := by
    intro a ha hlo hhi
    rcases le_or_gt (key a) mid with hm | hm
    · exact (h.complete a ha hlo hm).imp (List.mem_append_left _) (List.mem_append_left _)
    · exact (h'.complete a ha hm hhi).imp (List.mem_append_right _) (List.mem_append_right _)

/-- **A log may grow** behind the position. -/
theorem Covers.grow (h : Covers key log lost lo hi got) (hnew : ∀ a ∈ new, lo < key a → hi < key a) :
    Covers key (log ++ new) lost lo hi got :=
  { h with
    genuine := fun a ha => List.mem_append_left _ (h.genuine a ha)
    complete := by
      intro a ha hlo hhi
      rcases List.mem_append.mp ha with ha | ha
      · exact h.complete a ha hlo hhi
      · exact absurd hhi (not_le.mpr (hnew a ha hlo)) }

/-! ### One call -/

theorem le_reached (hs : got.Pairwise fun a b => key a < key b) {a : α} (ha : a ∈ got) (lo : κ) :
    key a ≤ reached key lo got := by
  induction got using List.reverseRecOn with
  | nil => cases ha
  | append_singleton got b _ =>
    rw [reached_concat]
    rcases List.mem_append.mp ha with ha | ha
    · exact ((List.pairwise_append.mp hs).2.2 a ha b (by simp)).le
    · rw [List.mem_singleton.mp ha]

/-- The position after some of the entries that follow it. -/
theorem lo_le_reached (h : ∀ a ∈ got, lo < key a) : lo ≤ reached key lo got := by
  by_cases hn : got = []
  · rw [hn, reached_nil]
  · obtain ⟨a, ha, hr⟩ := reached_mem key lo hn
    rw [hr]
    exact (h a ha).le

/-- **A batch that leaves nothing out** between the position and its last entry. -/
theorem Covers.take (hs : got.Pairwise fun a b => key a < key b)
    (hmem : ∀ a ∈ got, a ∈ log ∧ lo < key a)
    (hall : ∀ a ∈ log, lo < key a → key a ≤ reached key lo got → a ∈ got) :
    Covers key log [] lo (reached key lo got) got where
  le := lo_le_reached fun a ha => (hmem a ha).2
  sorted := hs
  within a ha := ⟨(hmem a ha).2, le_reached hs ha lo⟩
  genuine a ha := (hmem a ha).1
  lost_sorted := .nil
  lost_within := by simp
  disjoint := by simp
  complete a ha hlo hhi := Or.inl (hall a ha hlo hhi)

/-- **A batch without gaps**: `got` is what the log holds first after the position. -/
theorem Covers.read (hlog : log.Pairwise fun a b => key a < key b)
    (hgot : got <+: log.filter fun a => lo < key a) :
    Covers key log [] lo (reached key lo got) got := by
  obtain ⟨rest, hrest⟩ := hgot
  have hsorted : (got ++ rest).Pairwise fun a b => key a < key b := hrest ▸ hlog.filter _
  have hmem : ∀ a ∈ got, a ∈ log ∧ lo < key a := by
    intro a ha
    have : a ∈ log.filter fun a => lo < key a := hrest ▸ List.mem_append_left _ ha
    simpa using this
  refine Covers.take (List.pairwise_append.mp hsorted).1 hmem fun a ha hlo hhi => ?_
  have hin : a ∈ got ++ rest := by
    rw [hrest]
    simp [ha, hlo]
  refine (List.mem_append.mp hin).resolve_right fun hr => ?_
  -- What is not handed on comes after everything that is.
  by_cases hn : got = []
  · rw [hn, reached_nil] at hhi
    exact absurd hhi (not_le.mpr hlo)
  · obtain ⟨b, hb, hreach⟩ := reached_mem key lo hn
    rw [hreach] at hhi
    exact absurd hhi (not_le.mpr ((List.pairwise_append.mp hsorted).2.2 b hb a hr))

/-- **A stretch moved over**, its entries listed. -/
theorem Covers.skip (hle : lo ≤ hi) (hs : lost.Pairwise (· < ·))
    (hlost : ∀ k ∈ lost, lo < k ∧ k ≤ hi)
    (hlog : ∀ a ∈ log, lo < key a → key a ≤ hi → key a ∈ lost) :
    Covers key log lost lo hi [] where
  le := hle
  sorted := .nil
  within := by simp
  genuine := by simp
  lost_sorted := hs
  lost_within := hlost
  disjoint := by simp
  complete := fun a ha hlo hhi => Or.inr (hlog a ha hlo hhi)

/-! ### What is accounted for -/

end Lib.Tail
