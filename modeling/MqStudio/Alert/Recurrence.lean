import MqStudio.Alert.Merge

/-!
# Alerts that come back

Runs of the notification centre: sweeps, and the user marking records read.

An alert fires, is observed cleared at `clear`, and is observed again at `again`.
In between its record is resolved, and dropped by the first sweep that finds it
older than the retention window or its connection gone (`dormant_run`).  While
the record is there the alert comes back unread; once it is dropped the alert is
taken for a new one, and the read set decides.

* `announced_again_iff`: exactly when the alert is announced again.
* `silent_recurrence`: one that was read and comes back after the window is not.
-/

namespace MqStudio.Alert

open Lib Lib.Transition

/-! ### Runs -/

/-- The sweeps of a run. -/
def rounds (steps : List Step) : List Round :=
  steps.filterMap fun s => match s with
    | .round r => some r
    | _ => none

@[simp] theorem rounds_nil : rounds [] = [] := rfl

@[simp] theorem rounds_round (r : Round) (l : List Step) :
    rounds (.round r :: l) = r :: rounds l := rfl

@[simp] theorem rounds_markRead (id : String) (l : List Step) :
    rounds (.markRead id :: l) = rounds l := rfl

@[simp] theorem rounds_markAllRead (l : List Step) : rounds (.markAllRead :: l) = rounds l := rfl

@[simp] theorem rounds_append (l m : List Step) : rounds (l ++ m) = rounds l ++ rounds m := by
  simp [rounds]

/-- The sweep found the connection without the alert. -/
def Round.Cleared (r : Round) (c : Int) (key : String) : Prop :=
  ∃ alerts, r.observed.get? c = some alerts ∧ ∀ d ∈ alerts, d.key ≠ key

/-- The sweep found the connection with the alert. -/
def Round.Fires (r : Round) (c : Int) (key : String) : Prop :=
  ∃ alerts, r.observed.get? c = some alerts ∧ ∃ d ∈ alerts, d.key = key

/-- Every connection that was observed is known. -/
def Round.ObservedKnown (r : Round) : Prop :=
  ∀ c alerts, r.observed.get? c = some alerts → c ∈ r.known

/-- The record of an id is unread, and was announced. -/
def Announced (result : MergeResult) (id : String) : Prop :=
  (∃ r, result.records.get? id = some r ∧ r.read = false) ∧ ∃ f ∈ result.fired, f.id = id

/-! ### What a pass does to a record it does not fire -/

variable {read : List String} {now : Int}

/-- Where no observed alert has the id, a record that is absent stays absent, and one that is not
firing, or belongs to no observed connection, stays as it is. -/
theorem get?_observe_quiet {id : String} : ∀ (es : List (Int × List DerivedAlert)),
    (∀ e ∈ es, id ∉ firingIds e.1 e.2) → ∀ acc : MergeResult, Keyed acc.records →
    (∀ r, acc.records.get? id = some r → r.resolvedAt ≠ none ∨ r.connectionId ∉ es.map Prod.fst) →
    (es.foldl (observeConnection read now) acc).records.get? id = acc.records.get? id := by
  intro es
  induction es with
  | nil => intro _ acc _ _; rfl
  | cons e es ih =>
    intro hq acc hk hr
    obtain ⟨c, alerts⟩ := e
    have hsame : (observeConnection read now acc (c, alerts)).records.get? id =
        acc.records.get? id := by
      rw [get?_observeConnection_of_none _ _ hk (hq (c, alerts) (by simp))]
      cases hg : acc.records.get? id with
      | none => rfl
      | some r =>
        rw [Option.map_some, if_neg]
        rintro ⟨hc, hf⟩
        rcases hr r hg with h | h
        · exact h hf
        · exact h (by simp [hc])
    rw [List.foldl_cons, ih (fun e he => hq e (by simp [he])) _ (hk.observeConnection _ _ c alerts)]
    · exact hsame
    · intro r hg
      rw [hsame] at hg
      exact (hr r hg).imp_right fun h hm => h (by simp [hm])

/-- A firing record of a connection that was observed without it is resolved. -/
theorem get?_observe_cleared {id : String} {c : Int} : ∀ (es : List (Int × List DerivedAlert)),
    (∀ e ∈ es, id ∉ firingIds e.1 e.2) → c ∈ es.map Prod.fst → ∀ acc : MergeResult,
    Keyed acc.records → ∀ r, acc.records.get? id = some r → r.connectionId = c →
    r.resolvedAt = none →
    (es.foldl (observeConnection read now) acc).records.get? id =
      some { r with resolvedAt := some now } := by
  intro es
  induction es with
  | nil => intro _ hc; simp at hc
  | cons e es ih =>
    intro hq hc acc hk r hg hrc hf
    obtain ⟨c', alerts⟩ := e
    have hstep := get?_observeConnection_of_none read now hk
      (hq (c', alerts) (by simp))
    rw [hg, Option.map_some] at hstep
    rw [List.foldl_cons]
    have hk' := hk.observeConnection read now c' alerts
    by_cases hcc : r.connectionId = c'
    · rw [if_pos ⟨hcc, hf⟩] at hstep
      rw [get?_observe_quiet es (fun e he => hq e (by simp [he])) _ hk', hstep]
      intro s hs
      rw [hstep] at hs
      obtain rfl := Option.some.inj hs
      exact Or.inl (by simp)
    · rw [if_neg fun h => hcc h.1] at hstep
      have hm : c ∈ es.map Prod.fst := by
        rcases List.mem_cons.mp hc with h | h
        · exact absurd (hrc.trans h) hcc
        · exact h
      exact ih (fun e he => hq e (by simp [he])) hm _ hk' r hstep hrc hf

/-- A list of observed connections without one of them announces nothing under its ids. -/
theorem observe_fired_iff {id : String} : ∀ (es : List (Int × List DerivedAlert)),
    (∀ e ∈ es, id ∉ firingIds e.1 e.2) → ∀ acc : MergeResult,
    ((∃ f ∈ (es.foldl (observeConnection read now) acc).fired, f.id = id) ↔
      ∃ f ∈ acc.fired, f.id = id) := by
  intro es
  induction es with
  | nil => intro _ acc; rfl
  | cons e es ih =>
    intro hq acc
    obtain ⟨c, alerts⟩ := e
    rw [List.foldl_cons, ih fun e he => hq e (by simp [he])]
    constructor
    · rintro ⟨f, hf, hid⟩
      rcases observeAll_fired c read now hf with h | ⟨-, h⟩
      · exact ⟨f, h, hid⟩
      · exact absurd (hid ▸ h) (hq (c, alerts) (by simp))
    · rintro ⟨f, hf, hid⟩
      exact ⟨f, mem_observeAll_fired c read now hf alerts, hid⟩

variable (read now) in
/-- An alert that was not firing: its record is fresh, read only where it is new and in the read
set, and announced unless it is read. -/
theorem observeAll_fires {c : Int} {id : String} {acc : MergeResult}
    (hnot : ¬ Firing acc.records id) (hfired : ¬ ∃ f ∈ acc.fired, f.id = id)
    (alerts : List DerivedAlert) :
    (id ∉ firingIds c alerts → (observeAll c read now acc alerts).records.get? id =
      acc.records.get? id ∧ ¬ ∃ f ∈ (observeAll c read now acc alerts).fired, f.id = id) ∧
    (id ∈ firingIds c alerts →
      ∃ r, (observeAll c read now acc alerts).records.get? id = some r ∧ r.resolvedAt = none ∧
        (r.read = true ↔ acc.records.get? id = none ∧ id ∈ read) ∧
        ((∃ f ∈ (observeAll c read now acc alerts).fired, f.id = id) ↔ r.read = false)) := by
  induction alerts using List.reverseRecOn with
  | nil => exact ⟨fun _ => ⟨rfl, hfired⟩, fun h => by simp [firingIds] at h⟩
  | append_singleton alerts d ih =>
    have hids : id ∈ firingIds c (alerts ++ [d]) ↔
        id ∈ firingIds c alerts ∨ recordId c d.key = id := by
      simp [firingIds, eq_comm]
    rw [observeAll_concat, hids]
    by_cases hid : recordId c d.key = id
    · refine ⟨fun h => absurd (Or.inr hid) h, fun _ => ?_⟩
      by_cases hmem : id ∈ firingIds c alerts
      · -- A second alert under the id: the record is already firing.
        obtain ⟨r, hr, hf, hread, hann⟩ := ih.2 hmem
        rw [← hid] at hr
        rw [observeAlert_of_firing c read now hr hf]
        refine ⟨r.withShape c d now, ?_, hf, hread, hann⟩
        exact (OrderedMap.get?_set _ _ _ _).trans (if_pos hid)
      · obtain ⟨hsame, hnone⟩ := ih.1 hmem
        have hnot' : ¬ Firing (observeAll c read now acc alerts).records (recordId c d.key) := by
          rintro ⟨r, hr, hf⟩
          rw [hid, hsame] at hr
          exact hnot ⟨r, hr, hf⟩
        obtain ⟨f, hfid, -, hf, -, hread, he⟩ := observeAlert_of_not_firing c read now hnot'
        rw [hid, hsame] at hread
        rw [he]
        refine ⟨f, (OrderedMap.get?_set _ _ _ _).trans (if_pos hid), hf, hread, ?_⟩
        cases hr : f.read with
        | true =>
          simp only [if_true, reduceCtorEq, iff_false]
          exact hnone
        | false =>
          simp only [Bool.false_eq_true, if_false, iff_true]
          exact ⟨f, by simp, hfid.trans hid⟩
    · have hfiredIff : (∃ f ∈ (observeAlert c read now (observeAll c read now acc alerts) d).fired,
          f.id = id) ↔ ∃ f ∈ (observeAll c read now acc alerts).fired, f.id = id := by
        constructor
        · rintro ⟨f, hf, hfid⟩
          rcases observeAlert_fired c read now hf with h | ⟨-, h⟩
          · exact ⟨f, h, hfid⟩
          · exact absurd (h.symm.trans hfid) hid
        · rintro ⟨f, hf, hfid⟩
          exact ⟨f, mem_observeAlert_fired c read now hf d, hfid⟩
      rw [get?_observeAlert_of_ne c read now hid, hfiredIff]
      simpa [hid] using ih

/-! ### What the hook keeps of a record -/

/-- Every record is under the id of the connection it names. -/
def Owned (m : Records) : Prop :=
  Keyed m ∧ ∀ c key r, m.get? (recordId c key) = some r → r.connectionId = c

/-- What marking a record read leaves alone. -/
def AlertRecord.core (r : AlertRecord) : String × Int × Option Int :=
  (r.id, r.connectionId, r.resolvedAt)

/-- Marking changes no record but for its read state. -/
theorem core_markRead (s : Center) (a id : String) :
    ((s.markRead a).records.get? id).map AlertRecord.core =
      (s.records.get? id).map AlertRecord.core := by
  unfold Center.markRead
  split
  · rfl
  · rename_i record hr
    split
    · rfl
    · dsimp only
      rw [OrderedMap.get?_set]
      split
      · rename_i hid
        rw [← hid, hr]
        rfl
      · rfl

theorem core_markAllRead (s : Center) (id : String) :
    (s.markAllRead.records.get? id).map AlertRecord.core =
      (s.records.get? id).map AlertRecord.core := by
  have hrun : ∀ (es : List (String × AlertRecord)), (∀ e ∈ es, s.records.get? e.1 = some e.2) →
      ∀ t : Center, (t.records.get? id).map AlertRecord.core =
        (s.records.get? id).map AlertRecord.core →
      ((es.foldl (fun t e => if e.2.read then t
        else ⟨t.records.set e.1 { e.2 with read := true }, t.readIds ++ [e.1]⟩) t).records.get?
          id).map AlertRecord.core = (s.records.get? id).map AlertRecord.core := by
    intro es
    induction es with
    | nil => intro _ t ht; exact ht
    | cons e es ih =>
      intro hes t ht
      refine ih (fun e he => hes e (by simp [he])) _ ?_
      dsimp only
      split
      · exact ht
      · dsimp only
        rw [OrderedMap.get?_set]
        split
        · rename_i hid
          rw [← hid, hes e (by simp)]
          rfl
        · exact ht
  exact hrun s.records.entries (fun e he => OrderedMap.mem_entries.mp he) s rfl

theorem Owned.of_core {m m' : Records} (h : Owned m)
    (hm : ∀ id, (m'.get? id).map AlertRecord.core = (m.get? id).map AlertRecord.core) :
    Owned m' := by
  have hback : ∀ id r, m'.get? id = some r → ∃ r₀, m.get? id = some r₀ ∧ r₀.core = r.core := by
    intro id r hr
    have he := hm id
    rw [hr, Option.map_some] at he
    exact Option.map_eq_some_iff.mp he.symm
  constructor
  · intro id r hr
    obtain ⟨r₀, hr₀, hc⟩ := hback id r hr
    exact (congrArg Prod.fst hc).symm.trans (h.1 id r₀ hr₀)
  · intro c key r hr
    obtain ⟨r₀, hr₀, hc⟩ := hback _ r hr
    exact (congrArg (fun x => x.2.1) hc).symm.trans (h.2 c key r₀ hr₀)

theorem Owned.carryForward {m : Records} (h : Owned m) (known : List Int) (now : Int) :
    Owned (carryForward m known now) := by
  refine ⟨(carryForward_facts m known now).1, fun c key r hr => ?_⟩
  rw [get?_carryForward h.1] at hr
  exact h.2 c key r (Option.filter_eq_some_iff.mp hr).1

variable (read now) in
theorem Owned.observeConnection {acc : MergeResult} (h : Owned acc.records) (c : Int)
    (alerts : List DerivedAlert) :
    Owned (observeConnection read now acc (c, alerts)).records := by
  refine ⟨h.1.observeConnection read now c alerts, fun c' key r hr => ?_⟩
  by_cases hid : recordId c' key ∈ firingIds c alerts
  · cases hl : lastFor c alerts (recordId c' key) with
    | none => exact absurd hid ((lastFor_eq_none c).mp hl)
    | some d =>
      obtain ⟨s, hs, -, hsh⟩ := get?_observeConnection_of_some read now h.1 hl
      obtain rfl := Option.some.inj (hs.symm.trans hr)
      rw [connectionId_of_shape hsh]
      exact connectionId_of_recordId (lastFor_some c hl)
  · rw [get?_observeConnection_of_none _ _ h.1 hid] at hr
    obtain ⟨s, hs, rfl⟩ := Option.map_eq_some_iff.mp hr
    split <;> exact h.2 c' key s hs

theorem Owned.observe : ∀ (es : List (Int × List DerivedAlert)) {acc : MergeResult},
    Owned acc.records → Owned (es.foldl (Alert.observeConnection read now) acc).records
  | [], _, h => h
  | (c, alerts) :: es, _, h => Owned.observe es (h.observeConnection _ _ c alerts)

/-- Every step of the hook keeps records under the ids of their connections. -/
theorem Owned.step {s : Center} (h : Owned s.records) (i : Step) : Owned (s.step i).records := by
  cases i with
  | round r => exact Owned.observe _ (h.carryForward _ _)
  | markRead id => exact h.of_core (core_markRead s id)
  | markAllRead => exact h.of_core (core_markAllRead s)

theorem Owned.run {s : Center} (h : Owned s.records) (steps : List Step) :
    Owned (run Center.step s steps).records :=
  run_inv Center.step (P := fun s => Owned s.records) (fun _ i hs => hs.step i) steps s h

theorem Owned.empty : Owned .empty :=
  ⟨Keyed.empty, fun c key r hr => by simp at hr⟩

/-! ### Between the two episodes -/

/-- No observed list of the sweep has the alert's id. -/
theorem Round.quiet {r : Round} {c : Int} {key : String} (h : ¬ r.Fires c key) :
    ∀ e ∈ r.observed.entries, recordId c key ∉ firingIds e.1 e.2 := by
  rintro ⟨c', alerts⟩ he hid
  by_cases hc : c' = c
  · subst hc
    obtain ⟨d, hd, hk⟩ := List.mem_map.mp hid
    exact h ⟨alerts, OrderedMap.mem_entries.mp he, d, hd, key_of_recordId hk⟩
  · exact not_mem_firingIds hc alerts key hid

theorem Round.Cleared.not_fires {r : Round} {c : Int} {key : String} (h : r.Cleared c key) :
    ¬ r.Fires c key := by
  rintro ⟨alerts, ha, d, hd, hk⟩
  obtain ⟨alerts', ha', hnot⟩ := h
  obtain rfl := Option.some.inj (ha.symm.trans ha')
  exact hnot d hd hk

/-- The record of a connection's alert, recovered at a time. -/
def Recovered (m : Records) (c : Int) (key : String) (t : Int) : Prop :=
  ∃ r, m.get? (recordId c key) = some r ∧ r.connectionId = c ∧ r.resolvedAt = some t

/-- **A sweep that finds the alert gone resolves its record.** -/
theorem recovered_of_cleared {s : Center} (h : Owned s.records) {r : Round} {c : Int}
    {key : String} (hfiring : Firing s.records (recordId c key)) (hclear : r.Cleared c key)
    (hknown : r.ObservedKnown) : Recovered (s.merge r).records c key r.now := by
  obtain ⟨record, hr, hf⟩ := hfiring
  have hc := h.2 c key record hr
  have hquiet := Round.quiet hclear.not_fires
  obtain ⟨alerts, ha, -⟩ := hclear
  have hmem : c ∈ r.observed.entries.map Prod.fst :=
    List.mem_map.mpr ⟨_, OrderedMap.mem_entries.mpr ha, rfl⟩
  have hcarry : (carryForward s.records r.known r.now).get? (recordId c key) = some record := by
    rw [get?_carryForward h.1, hr, Option.filter_some, if_pos]
    simp [carried, expired, hf, hc, hknown c alerts ha]
  refine ⟨{ record with resolvedAt := some r.now }, ?_, hc, rfl⟩
  exact get?_observe_cleared _ hquiet hmem _ (carryForward_facts _ _ _).1 record hcarry hc hf

/-- The sweep carries a record of the connection that recovered at `t`. -/
def Round.Carries (r : Round) (c : Int) (t : Int) : Prop :=
  c ∈ r.known ∧ r.now - t ≤ resolvedRetentionMs

theorem carryForward_recovered {m : Records} (h : Owned m) {r : Round} {c : Int} {key : String}
    {t : Int} (hr : Recovered m c key t) :
    (r.Carries c t ∧ (carryForward m r.known r.now).get? (recordId c key) =
      m.get? (recordId c key)) ∨
    (¬ r.Carries c t ∧ (carryForward m r.known r.now).get? (recordId c key) = none) := by
  obtain ⟨record, hget, hc, ht⟩ := hr
  rw [get?_carryForward h.1, hget, Option.filter_some]
  have hiff : carried r.known r.now record = true ↔ r.Carries c t := by
    simp [carried, expired, ht, hc, Round.Carries]
  by_cases hk : r.Carries c t
  · exact Or.inl ⟨hk, if_pos (hiff.mpr hk)⟩
  · exact Or.inr ⟨hk, if_neg fun hx => hk (hiff.mp hx)⟩

/-- What a run without the alert does to its record: there, recovered when it recovered, as long
as every sweep carried it, and gone once one did not. -/
structure Dormant (s : Center) (c : Int) (key : String) (t : Int) (mid : List Step) : Prop where
  owned : Owned s.records
  kept : (∀ r ∈ rounds mid, r.Carries c t) → Recovered s.records c key t
  dropped : (¬ ∀ r ∈ rounds mid, r.Carries c t) → s.records.get? (recordId c key) = none

theorem Dormant.of_core {s s' : Center} {c : Int} {key : String} {t : Int} {mid : List Step}
    (h : Dormant s c key t mid)
    (hs : ∀ id, (s'.records.get? id).map AlertRecord.core =
      (s.records.get? id).map AlertRecord.core) :
    Dormant s' c key t mid := by
  refine ⟨h.owned.of_core hs, fun hk => ?_, fun hd => ?_⟩
  · obtain ⟨r, hr, hc, ht⟩ := h.kept hk
    have he := hs (recordId c key)
    rw [hr, Option.map_some] at he
    obtain ⟨r', hr', hcore⟩ := Option.map_eq_some_iff.mp he
    exact ⟨r', hr', (congrArg (fun x => x.2.1) hcore).trans hc,
      (congrArg (fun x => x.2.2) hcore).trans ht⟩
  · have he := hs (recordId c key)
    rw [h.dropped hd, Option.map_none] at he
    exact Option.map_eq_none_iff.mp he

/-- A sweep that does not find the alert. -/
theorem Dormant.merge {s : Center} {c : Int} {key : String} {t : Int} {mid : List Step}
    (h : Dormant s c key t mid) {r : Round} (hquiet : ¬ r.Fires c key) :
    Dormant (s.merge r) c key t (mid ++ [.round r]) := by
  have hmid : (∀ q ∈ rounds (mid ++ [Step.round r]), q.Carries c t) ↔
      (∀ q ∈ rounds mid, q.Carries c t) ∧ r.Carries c t := by
    rw [rounds_append, List.forall_mem_append]
    simp [rounds]
  have hsame : ((carryForward s.records r.known r.now).get? (recordId c key) = none ∨
      Recovered (carryForward s.records r.known r.now) c key t) →
      (s.merge r).records.get? (recordId c key) =
        (carryForward s.records r.known r.now).get? (recordId c key) := by
    intro hcarry
    refine get?_observe_quiet _ (Round.quiet hquiet) _ (carryForward_facts _ _ _).1 ?_
    intro record hget
    rcases hcarry with hn | ⟨q, hq, -, ht⟩
    · cases hn.symm.trans hget
    · obtain rfl := Option.some.inj (hq.symm.trans hget)
      exact Or.inl (by simp [ht])
  refine ⟨h.owned.step (.round r), fun hk => ?_, fun hd => ?_⟩
  · obtain ⟨hk, hr⟩ := hmid.mp hk
    have hrec := h.kept hk
    rcases carryForward_recovered h.owned (r := r) hrec with ⟨-, hc⟩ | ⟨hn, -⟩
    · have hrec' : Recovered (carryForward s.records r.known r.now) c key t := by
        obtain ⟨q, hq, hx⟩ := hrec
        exact ⟨q, hc.trans hq, hx⟩
      obtain ⟨q, hq, hx⟩ := hrec'
      exact ⟨q, (hsame (Or.inr ⟨q, hq, hx⟩)).trans hq, hx⟩
    · exact absurd hr hn
  · have hnone : (carryForward s.records r.known r.now).get? (recordId c key) = none := by
      by_cases hk : ∀ q ∈ rounds mid, q.Carries c t
      · rcases carryForward_recovered h.owned (r := r) (h.kept hk) with ⟨hr, -⟩ | ⟨-, hc⟩
        · exact absurd (hmid.mpr ⟨hk, hr⟩) hd
        · exact hc
      · rw [get?_carryForward h.owned.1, h.dropped hk]
        rfl
    exact (hsame (Or.inl hnone)).trans hnone

/-- **A run without the alert keeps its record while the sweeps carry it.** -/
theorem dormant_run {s : Center} {c : Int} {key : String} {t : Int} (hs : Owned s.records)
    (hr : Recovered s.records c key t) (mid : List Step)
    (hquiet : ∀ r ∈ rounds mid, ¬ r.Fires c key) :
    Dormant (run Center.step s mid) c key t mid := by
  induction mid using List.reverseRecOn with
  | nil => exact ⟨hs, fun _ => hr, fun h => absurd (by simp [rounds]) h⟩
  | append_singleton mid i ih =>
    rw [rounds_append, List.forall_mem_append] at hquiet
    have h := ih hquiet.1
    rw [run_append, run_cons, run_nil]
    have hmarks : ∀ j : Step, (∀ r, j ≠ .round r) → rounds (mid ++ [j]) = rounds mid := by
      intro j hj
      cases j with
      | round r => exact absurd rfl (hj r)
      | markRead _ => simp [rounds]
      | markAllRead => simp [rounds]
    cases i with
    | round r => exact h.merge (hquiet.2 r (by simp [rounds]))
    | markRead id =>
      have h' := h.of_core (core_markRead _ id)
      have hm := hmarks (.markRead id) (by simp)
      exact ⟨h'.owned, hm ▸ h'.kept, hm ▸ h'.dropped⟩
    | markAllRead =>
      have h' := h.of_core (core_markAllRead _)
      have hm := hmarks .markAllRead (by simp)
      exact ⟨h'.owned, hm ▸ h'.kept, hm ▸ h'.dropped⟩

/-! ### The alert fires again -/

/-- **A sweep that finds an alert that was not firing announces it, unless its record is gone and
its id was read.** -/
theorem announced_iff {s : Center} (hs : Owned s.records) {r : Round} {c : Int} {key : String}
    (hfires : r.Fires c key)
    (hnot : ¬ Firing (carryForward s.records r.known r.now) (recordId c key)) :
    Announced (mergeAlerts (s.input r)) (recordId c key) ↔
      recordId c key ∉ s.readIds ∨
        (carryForward s.records r.known r.now).get? (recordId c key) ≠ none := by
  obtain ⟨alerts, ha, d, hd, hk⟩ := hfires
  obtain ⟨l₁, l₂, hl⟩ := List.append_of_mem (OrderedMap.mem_entries.mpr ha)
  have hn := r.observed.nodup
  rw [hl, List.map_append, List.map_cons, List.nodup_append, List.nodup_cons] at hn
  have hother : ∀ e ∈ l₁ ++ l₂, recordId c key ∉ firingIds e.1 e.2 := by
    rintro ⟨c', alerts'⟩ he
    refine not_mem_firingIds ?_ alerts' key
    rintro rfl
    rcases List.mem_append.mp he with he | he
    · exact hn.2.2 c' (List.mem_map.mpr ⟨_, he, rfl⟩) c' (by simp) rfl
    · exact hn.2.1.1 (List.mem_map.mpr ⟨_, he, rfl⟩)
  have hid : recordId c key ∈ firingIds c alerts := List.mem_map.mpr ⟨d, hd, by rw [hk]⟩
  -- The connections before it leave the record alone.
  set acc₀ : MergeResult := ⟨carryForward s.records r.known r.now, []⟩ with hacc₀
  set acc₁ := l₁.foldl (observeConnection s.readIds r.now) acc₀ with hacc₁
  have ho : Owned acc₁.records := Owned.observe _ (hs.carryForward _ _)
  have hget₁ : acc₁.records.get? (recordId c key) = acc₀.records.get? (recordId c key) := by
    refine get?_observe_quiet l₁ (fun e he => hother e (by simp [he])) acc₀
      (carryForward_facts _ _ _).1 fun q hq => Or.inl fun hf => hnot ⟨q, hq, hf⟩
  have hnot₁ : ¬ Firing acc₁.records (recordId c key) := by
    rintro ⟨q, hq, hf⟩
    exact hnot ⟨q, hget₁.symm.trans hq, hf⟩
  have hfired₁ : ¬ ∃ f ∈ acc₁.fired, f.id = recordId c key := by
    rw [observe_fired_iff l₁ fun e he => hother e (by simp [he])]
    simp [hacc₀]
  -- Its own list makes the record fresh.
  obtain ⟨q, hq, hqf, hread, hann⟩ :=
    (observeAll_fires s.readIds r.now hnot₁ hfired₁ alerts).2 hid
  have hok := ho.1.observeAll c s.readIds r.now alerts
  have hq₂ : (observeConnection s.readIds r.now acc₁ (c, alerts)).records.get? (recordId c key) =
      some q := by
    rw [observeConnection_eq]
    dsimp only
    rw [get?_resolveGone hok, hq, Option.map_some]
    simp [gone, hok _ _ hq, hid]
  have ho₂ := ho.observeConnection s.readIds r.now c alerts
  -- The connections after it leave it alone again.
  have hq₃ : (mergeAlerts (s.input r)).records.get? (recordId c key) = some q := by
    rw [mergeAlerts, show (s.input r).observed = r.observed from rfl, hl, List.foldl_append,
      List.foldl_cons]
    refine (get?_observe_quiet l₂ (fun e he => hother e (by simp [he])) _ ho₂.1 ?_).trans hq₂
    intro q' hq'
    obtain rfl := Option.some.inj (hq₂.symm.trans hq')
    rw [ho₂.2 c key q hq₂]
    exact Or.inr hn.2.1.1
  have hfired₃ : (∃ f ∈ (mergeAlerts (s.input r)).fired, f.id = recordId c key) ↔
      q.read = false := by
    rw [mergeAlerts, show (s.input r).observed = r.observed from rfl, hl, List.foldl_append,
      List.foldl_cons, observe_fired_iff l₂ fun e he => hother e (by simp [he])]
    exact hann
  have hreadIff : q.read = false ↔ recordId c key ∉ s.readIds ∨
      (carryForward s.records r.known r.now).get? (recordId c key) ≠ none := by
    rw [← Bool.not_eq_true, hread, hget₁]
    tauto
  rw [Announced, hfired₃, ← hreadIff]
  constructor
  · exact fun h => h.2
  · exact fun h => ⟨⟨q, hq₃, h⟩, h⟩

/-- A run, from a centre without records, in which an alert fires, is found cleared, and is next
found firing at the end. -/
structure Recurs (readIds : List String) (pre : List Step) (clear : Round) (mid : List Step)
    (again : Round) (c : Int) (key : String) : Prop where
  times : ((rounds (pre ++ .round clear :: mid ++ [.round again])).map Round.now).Pairwise (· ≤ ·)
  known : ∀ r ∈ rounds (pre ++ .round clear :: mid ++ [.round again]), r.ObservedKnown
  firing : Firing (run Center.step ⟨.empty, readIds⟩ pre).records (recordId c key)
  cleared : clear.Cleared c key
  quiet : ∀ r ∈ rounds mid, ¬ r.Fires c key
  again : again.Fires c key

/-- The centre before the last sweep of such a run. -/
def beforeAgain (readIds : List String) (pre : List Step) (clear : Round) (mid : List Step) :
    Center :=
  run Center.step ⟨.empty, readIds⟩ (pre ++ .round clear :: mid)

/-- **An alert that cleared and fires again is announced exactly where its id was never marked read,
or its record is still there: it recovered at most the retention window ago, and every sweep since
knew its connection.** -/
theorem announced_again_iff {readIds : List String} {pre mid : List Step} {clear again : Round}
    {c : Int} {key : String} (h : Recurs readIds pre clear mid again c key) :
    Announced (mergeAlerts ((beforeAgain readIds pre clear mid).input again)) (recordId c key) ↔
      recordId c key ∉ (beforeAgain readIds pre clear mid).readIds ∨
        (again.now - clear.now ≤ resolvedRetentionMs ∧ ∀ r ∈ rounds mid, c ∈ r.known) := by
  obtain ⟨htimes, hknown, hfiring, hclear, hmid, hagain⟩ := h
  set before := beforeAgain readIds pre clear mid with hbeforeDef
  set s := run Center.step ⟨.empty, readIds⟩ pre with hs
  have hsOwned : Owned s.records := Owned.empty.run pre
  have hrounds : rounds (pre ++ .round clear :: mid ++ [.round again]) =
      rounds pre ++ clear :: (rounds mid ++ [again]) := by
    simp
  rw [hrounds] at htimes hknown
  have hbefore : before = run Center.step (s.merge clear) mid := by
    rw [hbeforeDef, beforeAgain, run_append, run_cons, hs]
    rfl
  have hrec := recovered_of_cleared hsOwned hfiring hclear (hknown clear (by simp))
  have hdormant := dormant_run (hsOwned.step (.round clear)) hrec mid hmid
  rw [Center.step, ← hbefore] at hdormant
  -- The times of the sweeps between are at most the last one's.
  have hle : ∀ r ∈ rounds mid, r.now ≤ again.now := by
    intro r hr
    rw [List.map_append, List.pairwise_append, List.map_cons, List.pairwise_cons, List.map_append,
      List.pairwise_append] at htimes
    exact htimes.2.1.2.2.2 r.now (List.mem_map.mpr ⟨r, hr, rfl⟩) again.now (by simp)
  have hagainKnown : c ∈ again.known := by
    obtain ⟨alerts, ha, -⟩ := hagain
    exact hknown again (by simp) c alerts ha
  have hcarried : (carryForward before.records again.known again.now).get? (recordId c key) ≠ none ↔
      again.now - clear.now ≤ resolvedRetentionMs ∧ ∀ r ∈ rounds mid, c ∈ r.known := by
    by_cases hk : ∀ r ∈ rounds mid, r.Carries c clear.now
    · have hr := hdormant.kept hk
      rcases carryForward_recovered hdormant.owned (r := again) hr with ⟨hc, hget⟩ | ⟨hc, hget⟩
      · obtain ⟨q, hq, -⟩ := hr
        rw [hget, hq]
        exact iff_of_true (by simp) ⟨hc.2, fun r hr => (hk r hr).1⟩
      · rw [hget]
        simp only [ne_eq, not_true_eq_false, false_iff]
        exact fun hx => hc ⟨hagainKnown, hx.1⟩
    · rw [get?_carryForward hdormant.owned.1, hdormant.dropped hk]
      simp only [Option.filter_none, ne_eq, not_true_eq_false, false_iff]
      rintro ⟨hw, hkn⟩
      exact hk fun r hr => ⟨hkn r hr, by have := hle r hr; omega⟩
  rw [← hcarried]
  refine announced_iff hdormant.owned hagain ?_
  rintro ⟨q, hq, hf⟩
  by_cases hk : ∀ r ∈ rounds mid, r.Carries c clear.now
  · have hr := hdormant.kept hk
    rcases carryForward_recovered hdormant.owned (r := again) hr with ⟨-, hget⟩ | ⟨-, hget⟩
    · obtain ⟨q', hq', -, ht⟩ := hr
      rw [hget, hq'] at hq
      obtain rfl := Option.some.inj hq
      rw [hf] at ht
      cases ht
    · rw [hget] at hq
      cases hq
  · rw [get?_carryForward hdormant.owned.1, hdormant.dropped hk] at hq
    cases hq

/-- A sweep that reached one connection. -/
def sweepOf (now : Int) (alerts : List DerivedAlert) : Round :=
  ⟨OrderedMap.empty.set 7 alerts, [7], now⟩

theorem observedKnown_sweepOf (now : Int) (alerts : List DerivedAlert) :
    (sweepOf now alerts).ObservedKnown := by
  intro c alerts' h
  rw [sweepOf, OrderedMap.get?_set] at h
  split at h
  · simp_all [sweepOf]
  · simp at h

/-- A lagging group fires, is marked read, recovers, and lags again later. -/
theorem recurs_lag (again : Int) (h : 60000 ≤ again) :
    Recurs [] [.round (sweepOf 0 [lagAlert]), .markRead (recordId 7 lagAlert.key)]
      (sweepOf 60000 []) [] (sweepOf again [lagAlert]) 7 lagAlert.key where
  times := by
    have h0 : 0 ≤ again := by omega
    simpa [sweepOf] using ⟨h0, h⟩
  known := by
    intro r hr
    simp only [List.cons_append, List.nil_append, rounds_round, rounds_markRead, rounds_nil,
      List.mem_cons, List.not_mem_nil, or_false] at hr
    rcases hr with rfl | rfl | rfl <;> exact observedKnown_sweepOf _ _
  firing := ⟨_, rfl, rfl⟩
  cleared := ⟨[], rfl, by simp⟩
  quiet := by simp
  again := ⟨[lagAlert], rfl, lagAlert, by simp, rfl⟩

theorem announced_again_within_window :
    Recurs [] [.round (sweepOf 0 [lagAlert]), .markRead (recordId 7 lagAlert.key)]
        (sweepOf 60000 []) [] (sweepOf 120000 [lagAlert]) 7 lagAlert.key ∧
      Announced (mergeAlerts ((beforeAgain []
        [.round (sweepOf 0 [lagAlert]), .markRead (recordId 7 lagAlert.key)]
        (sweepOf 60000 []) []).input (sweepOf 120000 [lagAlert]))) (recordId 7 lagAlert.key) :=
  ⟨recurs_lag _ (by decide),
    (announced_again_iff (recurs_lag _ (by decide))).mpr (Or.inr ⟨by decide, by simp⟩)⟩

theorem silent_recurrence :
    ¬ ∀ (readIds : List String) (pre : List Step) (clear : Round) (mid : List Step)
      (again : Round) (c : Int) (key : String), Recurs readIds pre clear mid again c key →
      Announced (mergeAlerts ((beforeAgain readIds pre clear mid).input again))
        (recordId c key) := by
  intro h
  obtain ⟨-, hfired⟩ := h _ _ _ _ _ _ _ (recurs_lag (60000 + resolvedRetentionMs + 1)
    (by decide))
  revert hfired
  decide

end MqStudio.Alert
