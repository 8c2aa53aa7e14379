import MqStudio.Kafka.RecordTail

/-!
# The shares of a read from the end

`latestShares` of `kafka/record_read.go`: a budget of records is handed out over the partitions of a
topic in rounds, in each of which every partition that has more takes one.

* `handRound`, `handRounds`, `latestShares`: the rounds.
* `handRound_spec`: a round lifts every share by one, up to what the partition holds, as long as
  there is budget.
* `latestShares_fair`: the budget is spent as far as it can be, and evenly.
-/

namespace MqStudio.Kafka

open Std (ExtTreeMap)
open Lib.Maps

/-! ### The rounds -/

abbrev Shares := ExtTreeMap Int32 Int compare

/-- `shares[partition]`, where a missing entry is a zero. -/
def shareAt (shares : Shares) (partition : Int32) : Int := (shares[partition]?).getD 0

/-- What the partitions hold, and all of it. -/
def availableOf (partitions : List Int32) (starts ends : ListedOffsets) : Shares × Int :=
  partitions.foldl (fun acc partition =>
    let start := offsetAt starts partition
    let ending := offsetAt ends partition
    if start < 0 ∨ ending < 0 ∨ ending ≤ start then acc
    else (acc.1.insert partition (ending - start), acc.2 + (ending - start))) (∅, 0)

structure Handing where
  shares : Shares
  budget : Int
  spent : Bool

/-- One round, which ends with the budget. -/
def handRound (available : Shares) : List Int32 → Handing → Handing
  | [], handing => handing
  | partition :: partitions, handing =>
    if handing.budget = 0 then handing
    else if shareAt available partition ≤ shareAt handing.shares partition then
      handRound available partitions handing
    else
      handRound available partitions
        { shares := handing.shares.insert partition (shareAt handing.shares partition + 1)
          budget := handing.budget - 1
          spent := true }

theorem handRound_budget_le (available : Shares) (partitions : List Int32) (handing : Handing) :
    (handRound available partitions handing).budget ≤ handing.budget := by
  fun_induction handRound available partitions handing with
  | case1 | case2 => exact le_rfl
  | case3 _ _ _ _ _ ih => exact ih
  | case4 _ _ _ _ _ ih =>
    refine ih.trans ?_
    dsimp only
    omega

theorem handRound_spent (available : Shares) (partitions : List Int32) (handing : Handing)
    (h : handing.spent = true) : (handRound available partitions handing).spent = true := by
  fun_induction handRound available partitions handing with
  | case1 | case2 => exact h
  | case3 _ _ _ _ _ ih => exact ih h
  | case4 _ _ _ _ _ ih => exact ih rfl

/-- What was spent is gone from the budget. -/
theorem handRound_budget_lt {available : Shares} {partitions : List Int32} {handing : Handing}
    (h : (handRound available partitions handing).spent = true) (hspent : handing.spent = false) :
    (handRound available partitions handing).budget < handing.budget := by
  fun_induction handRound available partitions handing with
  | case1 | case2 =>
    rw [hspent] at h
    cases h
  | case3 _ _ _ _ _ ih => exact ih h hspent
  | case4 =>
    refine (handRound_budget_le _ _ _).trans_lt ?_
    dsimp only
    omega

/-- Rounds until the budget is spent, or nothing is left anywhere. -/
def handRounds (available : Shares) (partitions : List Int32) (shares : Shares) (budget : Int) :
    Shares :=
  if 0 < budget then
    let round := handRound available partitions ⟨shares, budget, false⟩
    if round.spent then handRounds available partitions round.shares round.budget
    else round.shares
  else shares
termination_by budget.toNat
decreasing_by
  rename_i hspent
  have hlt := handRound_budget_lt hspent rfl
  dsimp only at hlt
  omega

def latestShares (partitions : List Int32) (limit : Int) (starts ends : ListedOffsets) : Shares :=
  let available := availableOf partitions starts ends
  let budget := if available.2 < limit then available.2 else limit
  handRounds available.1 partitions ∅ budget

/-! ### What the partitions hold -/

/-- What a partition holds, by the offsets that were listed for it. -/
def held (starts ends : ListedOffsets) (partition : Int32) : Int :=
  let start := offsetAt starts partition
  let ending := offsetAt ends partition
  if start < 0 ∨ ending < 0 ∨ ending ≤ start then 0 else ending - start

section

variable {starts ends : ListedOffsets} {partitions : List Int32} {partition : Int32}
  {shares available : Shares}

theorem held_nonneg (starts ends : ListedOffsets) (partition : Int32) :
    0 ≤ held starts ends partition := by
  rw [held]
  split
  · exact le_rfl
  · omega

theorem shareAt_insert (shares : Shares) (partition other : Int32) (share : Int) :
    shareAt (shares.insert partition share) other =
      if partition = other then share else shareAt shares other := by
  rw [shareAt, getElem?_insert]
  split <;> rfl

theorem shareAt_empty (partition : Int32) : shareAt ∅ partition = 0 := by
  rw [shareAt, ExtTreeMap.getElem?_empty, Option.getD_none]

/-- What is available is what the partitions hold. -/
theorem availableOf_spec (partitions : List Int32) (starts ends : ListedOffsets) :
    (∀ partition, shareAt (availableOf partitions starts ends).1 partition =
        if partition ∈ partitions then held starts ends partition else 0) ∧
      (availableOf partitions starts ends).2 = (partitions.map (held starts ends)).sum := by
  induction partitions using List.reverseRecOn with
  | nil =>
    refine ⟨fun partition => ?_, rfl⟩
    rw [if_neg List.not_mem_nil]
    exact shareAt_empty partition
  | append_singleton partitions last ih =>
    obtain ⟨hshares, htotal⟩ := ih
    have hstep : availableOf (partitions ++ [last]) starts ends =
        if offsetAt starts last < 0 ∨ offsetAt ends last < 0 ∨
            offsetAt ends last ≤ offsetAt starts last then availableOf partitions starts ends
        else ((availableOf partitions starts ends).1.insert last
            (offsetAt ends last - offsetAt starts last),
          (availableOf partitions starts ends).2 +
            (offsetAt ends last - offsetAt starts last)) := by
      rw [availableOf, List.foldl_append]
      rfl
    rw [hstep, List.map_append, List.sum_append, ← htotal]
    split
    case isTrue hempty =>
      have hnone : held starts ends last = 0 := if_pos hempty
      refine ⟨fun partition => ?_, by simp [hnone]⟩
      rw [hshares]
      by_cases hlast : partition = last
      · subst hlast
        simp [hnone]
      · simp [hlast]
    case isFalse hsome =>
      have hheld : held starts ends last = offsetAt ends last - offsetAt starts last :=
        if_neg hsome
      refine ⟨fun partition => ?_, by simp [hheld]⟩
      rw [shareAt_insert, hshares, ← hheld]
      by_cases hlast : last = partition
      · subst hlast
        simp
      · simp [hlast, Ne.symm hlast]


/-! ### What a round hands out -/

/-- The shares after so many full rounds. -/
def level (available : Shares) (r : Int) (partition : Int32) : Int :=
  min r (shareAt available partition)

/-- What one round makes of shares that are level. -/
structure Handed (available : Shares) (r : Int) (partitions : List Int32) (before after : Handing) :
    Prop where
  others : ∀ partition, partition ∉ partitions →
    shareAt after.shares partition = shareAt before.shares partition
  between : ∀ partition ∈ partitions, level available r partition ≤ shareAt after.shares partition ∧
    shareAt after.shares partition ≤ level available (r + 1) partition
  full : 0 < after.budget → ∀ partition ∈ partitions,
    shareAt after.shares partition = level available (r + 1) partition
  budget : 0 ≤ after.budget
  conserved : (partitions.map (shareAt after.shares)).sum + after.budget =
    (partitions.map (shareAt before.shares)).sum + before.budget
  idle : after.spent = false → after.shares = before.shares ∧ after.budget = before.budget

/-- **One round** lifts every share by one, up to what the partition holds, as long as there is
budget. -/
theorem handRound_spec {r : Int} {handing : Handing} (hdistinct : partitions.Nodup)
    (hlevel : ∀ partition ∈ partitions,
      shareAt handing.shares partition = level available r partition)
    (hbudget : 0 ≤ handing.budget) :
    Handed available r partitions handing (handRound available partitions handing) := by
  induction partitions generalizing handing with
  | nil =>
    exact ⟨fun _ _ => rfl, by simp, by simp, hbudget, rfl, fun _ => ⟨rfl, rfl⟩⟩
  | cons first rest ih =>
    obtain ⟨hfirst, hrest⟩ := List.nodup_cons.mp hdistinct
    obtain ⟨hat, hlevels⟩ := List.forall_mem_cons.mp hlevel
    rw [handRound]
    split
    case isTrue hzero =>
      refine ⟨fun _ _ => rfl, fun partition hp => ?_, fun hpos => ?_, hbudget, rfl,
        fun _ => ⟨rfl, rfl⟩⟩
      · rw [hlevel partition hp, level, level]
        omega
      · omega
    case isFalse hsome =>
      split
      case isTrue hexhausted =>
        have h := ih hrest hlevels hbudget
        have hkeeps := h.others first hfirst
        have hlast : shareAt handing.shares first = level available (r + 1) first := by
          rw [level] at hat ⊢
          omega
        refine ⟨fun partition hp => ?_, fun partition hp => ?_, fun hpos partition hp => ?_,
          h.budget, ?_, h.idle⟩
        · exact h.others partition fun hin => hp (List.mem_cons_of_mem _ hin)
        · rcases List.mem_cons.mp hp with rfl | hp
          · rw [hkeeps]
            exact ⟨hat.ge, hlast.le⟩
          · exact h.between partition hp
        · rcases List.mem_cons.mp hp with rfl | hp
          · rw [hkeeps, hlast]
          · exact h.full hpos partition hp
        · have hsum := h.conserved
          rw [List.map_cons, List.map_cons, List.sum_cons, List.sum_cons, hkeeps]
          omega
      case isFalse hmore =>
        have hpos : 0 ≤ handing.budget - 1 := by omega
        have hkept : ∀ partition ∈ rest, shareAt (handing.shares.insert first
            (shareAt handing.shares first + 1)) partition = shareAt handing.shares partition := by
          intro partition hp
          rw [shareAt_insert, if_neg]
          rintro rfl
          exact hfirst hp
        set next : Handing := ⟨handing.shares.insert first (shareAt handing.shares first + 1),
          handing.budget - 1, true⟩ with hnext
        have h : Handed available r rest next (handRound available rest next) :=
          ih hrest (fun partition hp => (hkept partition hp).trans (hlevels partition hp)) hpos
        set after := handRound available rest next with hafter
        have hraised : shareAt after.shares first = level available (r + 1) first := by
          rw [h.others first hfirst, shareAt_insert, if_pos rfl]
          rw [level] at hat ⊢
          omega
        refine ⟨fun partition hp => ?_, fun partition hp => ?_, fun hleft partition hp => ?_,
          h.budget, ?_, fun hidle => ?_⟩
        · rw [List.mem_cons, not_or] at hp
          rw [h.others partition hp.2, shareAt_insert, if_neg (Ne.symm hp.1)]
        · rcases List.mem_cons.mp hp with rfl | hp
          · rw [hraised, level, level]
            omega
          · exact h.between partition hp
        · rcases List.mem_cons.mp hp with rfl | hp
          · exact hraised
          · exact h.full hleft partition hp
        · have hsum := h.conserved
          rw [List.map_congr_left hkept] at hsum
          have hstep : shareAt after.shares first = shareAt handing.shares first + 1 := by
            rw [h.others first hfirst, shareAt_insert, if_pos rfl]
          rw [List.map_cons, List.map_cons, List.sum_cons, List.sum_cons, hstep]
          have hspend : next.budget = handing.budget - 1 := rfl
          omega
        · have hnot : after.spent = true := handRound_spent _ _ _ rfl
          rw [hidle] at hnot
          cases hnot

/-! ### What the rounds hand out -/

/-- A budget that was handed out over the partitions: no one has more than it holds, all of the
budget is spent that can be, and the shares are even but for those who have no more. -/
structure Fair (holds : Int32 → Int) (partitions : List Int32) (limit : Int) (shares : Shares) :
    Prop where
  nonneg : ∀ partition, 0 ≤ shareAt shares partition
  atMost : ∀ partition, shareAt shares partition ≤ holds partition
  total : (partitions.map (shareAt shares)).sum = min limit (partitions.map holds).sum
  even : ∀ partition ∈ partitions, ∀ other ∈ partitions,
    shareAt shares partition + 1 < shareAt shares other →
      shareAt shares partition = holds partition

/-- What the rounds leave: nothing outside the partitions, all shares between two levels, and the
whole budget in the shares. -/
structure Spread (available : Shares) (partitions : List Int32) (total : Int) (shares : Shares) :
    Prop where
  outside : ∀ partition, partition ∉ partitions → shareAt shares partition = 0
  between : ∃ r, 0 ≤ r ∧ ∀ partition ∈ partitions,
    level available r partition ≤ shareAt shares partition ∧
      shareAt shares partition ≤ level available (r + 1) partition
  total : (partitions.map (shareAt shares)).sum = total

/-- **All rounds**: the budget that the partitions can fill is spent. -/
theorem handRounds_spread {total r budget : Int} (hdistinct : partitions.Nodup)
    (houtside : ∀ partition, partition ∉ partitions → shareAt shares partition = 0) (hr : 0 ≤ r)
    (hlevel : ∀ partition ∈ partitions, shareAt shares partition = level available r partition)
    (hbudget : 0 ≤ budget) (hsum : (partitions.map (shareAt shares)).sum + budget = total)
    (hfill : total ≤ (partitions.map (shareAt available)).sum) :
    Spread available partitions total (handRounds available partitions shares budget) := by
  fun_induction handRounds available partitions shares budget generalizing r with
  | case1 shares budget hpos round hspent =>
    rename_i ih
    have h : Handed available r partitions ⟨shares, budget, false⟩ round :=
      handRound_spec hdistinct hlevel hbudget
    have houtside' : ∀ partition, partition ∉ partitions → shareAt round.shares partition = 0 :=
      fun partition hp => (h.others partition hp).trans (houtside partition hp)
    have htotal : (partitions.map (shareAt round.shares)).sum + round.budget = total :=
      h.conserved.trans hsum
    rcases h.budget.eq_or_lt with hzero | hleft
    · -- the round ended with the budget
      rw [handRounds, if_neg (by omega)]
      exact ⟨houtside', ⟨r, hr, h.between⟩, by omega⟩
    · exact ih houtside' (Int.add_nonneg hr Int.one_nonneg) (h.full hleft) h.budget htotal
  | case2 shares budget hpos round =>
    rename_i hidle
    have h : Handed available r partitions ⟨shares, budget, false⟩ round :=
      handRound_spec hdistinct hlevel hbudget
    obtain ⟨hshares, hkept⟩ := h.idle (Bool.eq_false_of_not_eq_true hidle)
    -- nothing is left anywhere, which the budget does not allow
    have hexhausted : ∀ partition ∈ partitions,
        shareAt available partition ≤ shareAt shares partition := by
      intro partition hp
      have hleft : 0 < round.budget := hkept ▸ hpos
      have hlifted := h.full hleft partition hp
      have hlow := hlevel partition hp
      rw [hshares] at hlifted
      rw [level] at hlifted hlow
      dsimp only at hlifted
      omega
    have hle := List.sum_le_sum hexhausted
    omega
  | case3 shares budget hdone =>
    refine ⟨houtside, ⟨r, hr, fun partition hp => ?_⟩, by omega⟩
    rw [hlevel partition hp, level, level]
    omega

/-- **The shares are fair**: the smaller of the limit and of what the partitions hold is handed out,
to none more than it holds, and evenly. -/
theorem latestShares_fair (hdistinct : partitions.Nodup) (limit : ℕ) (starts ends : ListedOffsets) :
    Fair (held starts ends) partitions limit (latestShares partitions limit starts ends) := by
  obtain ⟨havailable, htotal⟩ := availableOf_spec partitions starts ends
  have hholds : ∀ partition ∈ partitions,
      shareAt (availableOf partitions starts ends).1 partition = held starts ends partition :=
    fun partition hp => (havailable partition).trans (if_pos hp)
  have hsum : (partitions.map (shareAt (availableOf partitions starts ends).1)).sum =
      (partitions.map (held starts ends)).sum := by
    rw [List.map_congr_left hholds]
  have hnonneg : 0 ≤ (partitions.map (held starts ends)).sum := by
    refine List.sum_nonneg fun n hn => ?_
    obtain ⟨partition, -, rfl⟩ := List.mem_map.mp hn
    exact held_nonneg starts ends partition
  set budget := min (limit : Int) (partitions.map (held starts ends)).sum with hbudget
  have hshares : latestShares partitions limit starts ends =
      handRounds (availableOf partitions starts ends).1 partitions ∅ budget := by
    rw [latestShares, htotal, hbudget]
    congr 1
    split <;> omega
  have hzero : (partitions.map (shareAt ∅)).sum = 0 := by
    rw [List.map_congr_left fun partition _ => shareAt_empty partition, List.map_const',
      List.sum_replicate, smul_zero]
  have hlevel : ∀ partition ∈ partitions,
      shareAt ∅ partition = level (availableOf partitions starts ends).1 0 partition := by
    intro partition hp
    have hge := held_nonneg starts ends partition
    rw [shareAt_empty, level, hholds partition hp]
    omega
  have hspread : Spread (availableOf partitions starts ends).1 partitions budget
      (handRounds (availableOf partitions starts ends).1 partitions ∅ budget) :=
    handRounds_spread hdistinct (fun partition _ => shareAt_empty partition) le_rfl hlevel
      (by omega) (by omega) (by omega)
  rw [← hshares] at hspread
  obtain ⟨houtside, ⟨r, hr, hbetween⟩, hall⟩ := hspread
  refine ⟨fun partition => ?_, fun partition => ?_, hall, ?_⟩
  · by_cases hp : partition ∈ partitions
    · have hge := held_nonneg starts ends partition
      have hlow := (hbetween partition hp).1
      rw [level, hholds partition hp] at hlow
      omega
    · exact (houtside partition hp).ge
  · by_cases hp : partition ∈ partitions
    · have hhigh := (hbetween partition hp).2
      rw [level, hholds partition hp] at hhigh
      omega
    · rw [houtside partition hp]
      exact held_nonneg starts ends partition
  · intro partition hp other hother hlt
    have hlow := (hbetween partition hp).1
    have hown := (hbetween partition hp).2
    have hhigh := (hbetween other hother).2
    rw [level, hholds partition hp] at hlow hown
    rw [level] at hhigh
    omega

/-- Ten records of partitions that hold six and four. -/
theorem ten_of_six_and_four :
    Fair (held ((∅ : ListedOffsets).insert 0 ⟨0, none⟩ |>.insert 1 ⟨0, none⟩)
        ((∅ : ListedOffsets).insert 0 ⟨6, none⟩ |>.insert 1 ⟨4, none⟩)) [0, 1] (10 : ℕ)
      (latestShares [0, 1] (10 : ℕ)
        ((∅ : ListedOffsets).insert 0 ⟨0, none⟩ |>.insert 1 ⟨0, none⟩)
        ((∅ : ListedOffsets).insert 0 ⟨6, none⟩ |>.insert 1 ⟨4, none⟩)) :=
  latestShares_fair (by decide) 10 _ _

end

end MqStudio.Kafka
