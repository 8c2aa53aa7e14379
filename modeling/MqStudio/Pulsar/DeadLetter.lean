import Mathlib

/-!
# Splitting the name of a dead-letter topic

`splitDeadLetterName` of `pulsar/deadletter.go`: a name `<topic>-<subscription>-DLQ` or `-RETRY` is
divided at the last hyphen that has an existing topic in front of it.

* `bestFrom_spec`: the loop finds the last such hyphen.
* `divided`: whatever is returned divides the name, and no longer topic would.
* `dead_letter_right_iff`: a topic and its subscription come back from the name made of them,
  unless one of them holds a line feed, which the pattern does not read over.
-/

namespace MqStudio.Pulsar

def deadLetterSuffix : String := "DLQ"
def retrySuffix : String := "RETRY"

/-- The name of the topic for the messages that a subscription of a topic gave up on. -/
def companion (topic subscription suffix : String) : String :=
  topic ++ "-" ++ subscription ++ "-" ++ suffix

/-- The first group of `^(.*)-(DLQ|RETRY)$`.  A name ends in one of the two at most, and `.` does
not match a line feed. -/
def dlqPattern (name : List Char) : Option (List Char) :=
  ((name.dropSuffix? ('-' :: deadLetterSuffix.toList)).or
    (name.dropSuffix? ('-' :: retrySuffix.toList))).filter fun stem => '\n' ∉ stem

/-- The loop over the stem from an index down: `best` is the index of the last hyphen that has an
existing topic in front of it. -/
def bestFrom (existing : String → Bool) (stem : List Char) : ℕ → ℤ → ℤ
  | 0, best => best
  | i + 1, best =>
    if stem[i + 1]? = some '-' then
      bestFrom existing stem i
        (if existing (String.ofList (stem.take (i + 1))) ∧ best < ↑(i + 1) then ↑(i + 1) else best)
    else bestFrom existing stem i best

def splitDeadLetterName (name : String) (existing : String → Bool) : Option (String × String) :=
  match dlqPattern name.toList with
  | none => none
  | some stem =>
    let best := bestFrom existing stem (stem.length - 1) (-1)
    if best < 0 then none
    else some (String.ofList (stem.take best.toNat), String.ofList (stem.drop (best.toNat + 1)))

/-! ### The pattern -/

/-- No name ends in both. -/
theorem suffixes_apart (stem stem' : List Char) :
    stem ++ '-' :: deadLetterSuffix.toList ≠ stem' ++ '-' :: retrySuffix.toList := by
  intro h
  have hlast := congrArg List.getLast? h
  simp [deadLetterSuffix, retrySuffix] at hlast

theorem dropSuffix?_hyphen_iff {name stem : List Char} (suffix : String) :
    name.dropSuffix? ('-' :: suffix.toList) = some stem ↔
      name = stem ++ '-' :: suffix.toList := by
  rw [List.dropSuffix?_eq_some_iff]
  constructor
  · rintro ⟨s, hname, hs⟩
    rw [hname, beq_iff_eq.mp hs]
  · exact fun hname => ⟨_, hname, beq_self_eq_true _⟩

theorem dlqPattern_eq_some_iff {name stem : List Char} :
    dlqPattern name = some stem ↔ '\n' ∉ stem ∧
      ∃ suffix ∈ [deadLetterSuffix, retrySuffix], name = stem ++ '-' :: suffix.toList := by
  rw [dlqPattern, Option.filter_eq_some_iff, Option.or_eq_some_iff, dropSuffix?_hyphen_iff,
    dropSuffix?_hyphen_iff, decide_eq_true_iff, and_comm]
  refine and_congr_right fun _ => ?_
  simp only [List.mem_cons, List.not_mem_nil, or_false, exists_eq_or_imp, exists_eq_left]
  refine or_congr_right (and_iff_right_of_imp fun hretry => ?_)
  cases hdlq : name.dropSuffix? ('-' :: deadLetterSuffix.toList) with
  | none => rfl
  | some stem' =>
    have hname := (dropSuffix?_hyphen_iff _).mp hdlq
    exact absurd (hname.symm.trans hretry) (suffixes_apart stem' stem)

/-! ### The loop -/

section Loop

/-- A hyphen with an existing topic in front of it. -/
def Divides (existing : String → Bool) (stem : List Char) (k : ℕ) : Prop :=
  0 < k ∧ stem[k]? = some '-' ∧ existing (String.ofList (stem.take k)) = true

variable (existing : String → Bool) (stem : List Char)

/-- One turn of the loop: the index is taken where it divides the stem and is above the best. -/
theorem bestFrom_succ (i : ℕ) (best : ℤ) :
    ∃ next, bestFrom existing stem (i + 1) best = bestFrom existing stem i next ∧ best ≤ next ∧
      (Divides existing stem (i + 1) → ↑(i + 1) ≤ next) ∧
      (next = best ∨ next = ↑(i + 1) ∧ Divides existing stem (i + 1)) := by
  rw [bestFrom]
  by_cases hhyphen : stem[i + 1]? = some '-'
  · rw [if_pos hhyphen]
    by_cases htake : existing (String.ofList (stem.take (i + 1))) = true ∧ best < ↑(i + 1)
    · rw [if_pos htake]
      exact ⟨_, rfl, htake.2.le, fun _ => le_rfl, .inr ⟨rfl, Nat.succ_pos i, hhyphen, htake.1⟩⟩
    · rw [if_neg htake]
      exact ⟨_, rfl, le_rfl, fun hdiv => not_lt.mp fun hlt => htake ⟨hdiv.2.2, hlt⟩, .inl rfl⟩
  · rw [if_neg hhyphen]
    exact ⟨_, rfl, le_rfl, fun hdiv => absurd hdiv.2.1 hhyphen, .inl rfl⟩

/-- The loop finds the last hyphen that divides the stem, or leaves what it had. -/
theorem bestFrom_spec (i : ℕ) (best : ℤ) :
    best ≤ bestFrom existing stem i best ∧
      (∀ k ≤ i, Divides existing stem k → ↑k ≤ bestFrom existing stem i best) ∧
      (bestFrom existing stem i best = best ∨
        ∃ k ≤ i, bestFrom existing stem i best = ↑k ∧ Divides existing stem k) := by
  induction i generalizing best with
  | zero => exact ⟨le_rfl, fun k hk hdiv => absurd hdiv.1 (by omega), .inl rfl⟩
  | succ i ih =>
    obtain ⟨next, hturn, hle, hhere, hnext⟩ := bestFrom_succ existing stem i best
    obtain ⟨hmore, hbelow, hfound⟩ := ih next
    rw [hturn]
    refine ⟨hle.trans hmore, fun k hk hdiv => ?_, ?_⟩
    · rcases Nat.lt_or_eq_of_le hk with hlt | rfl
      · exact hbelow k (Nat.lt_succ_iff.mp hlt) hdiv
      · exact (hhere hdiv).trans hmore
    · rcases hfound with hkept | ⟨k, hk, hkeq, hdiv⟩
      · rw [hkept]
        exact hnext.imp id fun h => ⟨i + 1, le_rfl, h⟩
      · exact .inr ⟨k, hk.trans (Nat.le_succ i), hkeq, hdiv⟩

variable {existing stem}

theorem le_of_divides {k : ℕ} (h : Divides existing stem k) : k ≤ stem.length - 1 := by
  have := (List.getElem?_eq_some_iff.mp h.2.1).1
  omega

end Loop

/-- What a name is split into: the last hyphen of the stem that divides it. -/
theorem splitDeadLetterName_eq_some_iff {name : String} {existing : String → Bool}
    {topic subscription : String} :
    splitDeadLetterName name existing = some (topic, subscription) ↔
      ∃ stem k, dlqPattern name.toList = some stem ∧ Divides existing stem k ∧
        (∀ j, Divides existing stem j → j ≤ k) ∧ topic = String.ofList (stem.take k) ∧
        subscription = String.ofList (stem.drop (k + 1)) := by
  rw [splitDeadLetterName]
  cases hstem : dlqPattern name.toList with
  | none => simp
  | some stem =>
    obtain ⟨hmore, hall, hfound⟩ := bestFrom_spec existing stem (stem.length - 1) (-1)
    dsimp only
    generalize bestFrom existing stem (stem.length - 1) (-1) = best at hmore hall hfound
    constructor
    · intro h
      split at h
      · cases h
      · rename_i hbest
        obtain ⟨rfl, rfl⟩ := Prod.mk.inj (Option.some.inj h)
        rcases hfound with rfl | ⟨k, -, rfl, hdiv⟩
        · exact absurd (by decide) hbest
        · refine ⟨stem, k, rfl, hdiv, fun j hj => ?_, rfl, rfl⟩
          exact Int.ofNat_le.mp (hall j (le_of_divides hj) hj)
    · rintro ⟨stem', k, heq, hdiv, hlast, rfl, rfl⟩
      obtain rfl := Option.some.inj heq
      have hk := hall k (le_of_divides hdiv) hdiv
      rcases hfound with rfl | ⟨j, -, rfl, hj⟩
      · omega
      · obtain rfl : j = k := le_antisymm (hlast j hj) (Int.ofNat_le.mp hk)
        rw [if_neg (by omega), Int.toNat_natCast]

/-! ### Splitting a name -/

/-- A name is divided behind the longest existing topic. -/
structure Division (existing : String → Bool) (name topic subscription : String) : Prop where
  origin : existing topic = true
  made : ∃ suffix ∈ [deadLetterSuffix, retrySuffix], name = companion topic subscription suffix
  longest : ∀ suffix ∈ [deadLetterSuffix, retrySuffix], ∀ longer rest,
    name = companion longer rest suffix → existing longer = true →
      longer.length ≤ topic.length

/-- No existing topic stands for more of the name made of a topic and a subscription. -/
structure Free (existing : String → Bool) (topic subscription : String) : Prop where
  origin : existing topic = true
  named : subscription ≠ ""
  free : ∀ p q, subscription = p ++ "-" ++ q → existing (topic ++ "-" ++ p) = false

/-- A name that the pattern reads over. -/
structure Readable (topic subscription : String) : Prop where
  named : topic ≠ ""
  topic : '\n' ∉ topic.toList
  subscription : '\n' ∉ subscription.toList

/-- Whatever is returned divides the name, and a topic and a subscription come back from the names
made of them. -/
structure RightSplit (existing : String → Bool) (topic subscription : String) : Prop where
  sound : ∀ name origin rest, splitDeadLetterName name existing = some (origin, rest) →
    Division existing name origin rest
  finds : Free existing topic subscription → ∀ suffix ∈ [deadLetterSuffix, retrySuffix],
    splitDeadLetterName (companion topic subscription suffix) existing = some (topic, subscription)

/-! ### Divisions of a stem -/

section Stems

variable {existing : String → Bool}

theorem toList_companion (topic subscription suffix : String) :
    (companion topic subscription suffix).toList =
      (topic.toList ++ '-' :: subscription.toList) ++ '-' :: suffix.toList := by
  simp [companion]

theorem stem_unique {stem stem' : List Char} {suffix suffix' : String}
    (hsuffix : suffix ∈ [deadLetterSuffix, retrySuffix])
    (hsuffix' : suffix' ∈ [deadLetterSuffix, retrySuffix])
    (h : stem ++ '-' :: suffix.toList = stem' ++ '-' :: suffix'.toList) : stem = stem' := by
  simp only [List.mem_cons, List.not_mem_nil, or_false] at hsuffix hsuffix'
  rcases hsuffix with rfl | rfl <;> rcases hsuffix' with rfl | rfl
  · exact List.append_cancel_right h
  · exact absurd h (suffixes_apart stem stem')
  · exact absurd h.symm (suffixes_apart stem' stem)
  · exact List.append_cancel_right h

theorem divides_append {front back : List Char} (hne : front ≠ [])
    (h : existing (String.ofList front) = true) :
    Divides existing (front ++ '-' :: back) front.length := by
  refine ⟨List.length_pos_iff.mpr hne, ?_, ?_⟩
  · rw [List.getElem?_append_right le_rfl, Nat.sub_self]
    rfl
  · rwa [List.take_left]

theorem Divides.eq_append {stem : List Char} {k : ℕ} (h : Divides existing stem k) :
    stem = stem.take k ++ '-' :: stem.drop (k + 1) := by
  obtain ⟨hk, hget⟩ := List.getElem?_eq_some_iff.mp h.2.1
  rw [← hget, List.getElem_cons_drop, List.take_append_drop]

/-- **Whatever is returned divides the name**, and no longer topic would. -/
theorem divided {name topic subscription : String}
    (h : splitDeadLetterName name existing = some (topic, subscription)) :
    Division existing name topic subscription := by
  obtain ⟨stem, k, hstem, hdiv, hlast, rfl, rfl⟩ := splitDeadLetterName_eq_some_iff.mp h
  obtain ⟨-, suffix, hsuffix, hname⟩ := dlqPattern_eq_some_iff.mp hstem
  refine ⟨hdiv.2.2, ⟨suffix, hsuffix, ?_⟩, fun suffix' hsuffix' longer rest hlonger hexists => ?_⟩
  · rw [← String.toList_inj, toList_companion, String.toList_ofList, String.toList_ofList,
      ← hdiv.eq_append, hname]
  · rw [← String.toList_inj, toList_companion, hname] at hlonger
    obtain rfl := stem_unique hsuffix hsuffix' hlonger
    rw [String.length_ofList]
    by_cases hne : longer.toList = []
    · rw [← String.length_toList, hne]
      exact Nat.zero_le _
    · have hdivides : Divides existing (longer.toList ++ '-' :: rest.toList) longer.toList.length :=
        divides_append hne (by rwa [String.ofList_toList])
      rw [← String.length_toList, List.length_take]
      refine le_min (hlast _ hdivides) ?_
      rw [List.length_append]
      exact Nat.le_add_right _ _

/-- No hyphen behind a topic divides the stem where no existing topic stands for more of it. -/
theorem le_of_free {topic subscription : String} (h : Free existing topic subscription) {j : ℕ}
    (hj : Divides existing (topic.toList ++ '-' :: subscription.toList) j) :
    j ≤ topic.toList.length := by
  by_contra hlt
  rw [not_le] at hlt
  -- The topic, its hyphen and more are in front of a later hyphen.
  obtain ⟨n, rfl⟩ := Nat.exists_eq_add_of_lt hlt
  have hsplit := hj.eq_append
  have htake : (topic.toList ++ '-' :: subscription.toList).take (topic.toList.length + n + 1) =
      topic.toList ++ '-' :: subscription.toList.take n := by
    rw [Nat.add_assoc, List.take_length_add_append, List.take_succ_cons]
  have hexists := hj.2.2
  rw [htake] at hsplit hexists
  rw [List.append_assoc, List.append_cancel_left_eq, List.cons_append, List.cons.injEq] at hsplit
  have hfree := h.free (String.ofList (subscription.toList.take n)) (String.ofList
    ((topic.toList ++ '-' :: subscription.toList).drop (topic.toList.length + n + 1 + 1))) ?_
  · have htopic : topic ++ "-" ++ String.ofList (subscription.toList.take n) =
        String.ofList (topic.toList ++ '-' :: subscription.toList.take n) := by
      simp [← String.toList_inj]
    rw [htopic, hexists] at hfree
    cases hfree
  · rw [← String.toList_inj]
    simpa using hsplit.2

end Stems

/-- **A topic and its subscription come back from the name made of them exactly if neither holds a
line feed**, where no existing topic stands for more of the name. -/
theorem dead_letter_right_iff (existing : String → Bool) (topic subscription : String) :
    RightSplit existing topic subscription ↔
      (Free existing topic subscription → Readable topic subscription) := by
  constructor
  · intro hright hfree
    have hsome := hright.finds hfree deadLetterSuffix List.mem_cons_self
    obtain ⟨stem, k, hstem, hdiv, -, htopic, -⟩ := splitDeadLetterName_eq_some_iff.mp hsome
    obtain ⟨hline, suffix, hsuffix, hname⟩ := dlqPattern_eq_some_iff.mp hstem
    rw [toList_companion] at hname
    obtain rfl := stem_unique List.mem_cons_self hsuffix hname
    rw [List.mem_append, List.mem_cons, not_or, not_or] at hline
    refine ⟨?_, hline.1, hline.2.2⟩
    rintro rfl
    -- A topic that is returned has a hyphen behind it, and not at the front.
    have hnil : (String.ofList (("".toList ++ '-' :: subscription.toList).take k)).toList = [] := by
      rw [← htopic]
      rfl
    rw [String.toList_ofList, List.take_eq_nil_iff] at hnil
    rcases hnil with hzero | hempty
    · exact absurd hzero hdiv.1.ne'
    · exact absurd hempty (List.append_ne_nil_of_right_ne_nil _ (List.cons_ne_nil _ _))
  · intro h
    refine ⟨fun name origin rest => divided, fun hfree suffix hsuffix => ?_⟩
    have hreadable := h hfree
    refine splitDeadLetterName_eq_some_iff.mpr
      ⟨topic.toList ++ '-' :: subscription.toList, topic.toList.length, ?_, ?_,
        fun j hj => le_of_free hfree hj, ?_, ?_⟩
    · refine dlqPattern_eq_some_iff.mpr ⟨?_, suffix, hsuffix, toList_companion _ _ _⟩
      simp [hreadable.topic, hreadable.subscription]
    · refine divides_append (fun hnil => hreadable.named ?_) ?_
      · exact String.toList_eq_nil_iff.mp hnil
      · rw [String.ofList_toList]
        exact hfree.origin
    · rw [List.take_left, String.ofList_toList]
    · simp

/-- A subscription may hold a line feed. -/
theorem line_feed_not_split :
    ¬ RightSplit (fun name => name = "orders") "orders" "eu\nworker" := by
  intro hright
  have hfree : Free (fun name => name = "orders") "orders" "eu\nworker" := by
    refine ⟨by decide, by decide, fun p q _ => decide_eq_false fun heq => ?_⟩
    have hlen := congrArg String.length heq
    rw [String.length_append, String.length_append] at hlen
    have : "-".length = 1 := rfl
    omega
  have hsome := hright.finds hfree deadLetterSuffix List.mem_cons_self
  revert hsome
  decide

end MqStudio.Pulsar
