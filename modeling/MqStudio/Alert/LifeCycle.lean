import MqStudio.Alert.Recurrence

/-!
# The life of an alert's record

What one sweep makes of the record of each alert, and what it announces.

* `get?_observeConnection`: what one connection's alerts make of the record of an id, by `after`.
* `get?_observe_of_mine`, `mem_observe_fired`: the whole walk, read at one id.
* `merge_life_cycle`: every outcome, the announcements, and no order among the connections.
-/

namespace MqStudio.Alert

open Lib

/-! ### The record of one alert -/

/-- The record that an alert starts. -/
def started (c : Int) (d : DerivedAlert) (now : Int) (isRead : Bool) : AlertRecord where
  id := recordId c d.key
  connectionId := c
  ruleKey := d.ruleKey
  severity := d.severity
  params := d.params
  since := d.since
  firstSeen := now
  lastSeen := now
  resolvedAt := none
  read := isRead

/-- The record of an observed alert, from the one before. -/
def taken (c : Int) (read : List String) (now : Int) (d : DerivedAlert) :
    Option AlertRecord → AlertRecord
  | some r => if r.resolvedAt = none then r.withShape c d now else started c d now false
  | none => started c d now (read.contains (recordId c d.key))

/-- Whether an alert starts, and is announced. -/
def startsUnread (read : List String) (id : String) : Option AlertRecord → Bool
  | some r => r.resolvedAt ≠ none
  | none => !read.contains id

section Alert

variable {c : Int} {read : List String} {now : Int}

theorem taken_live (d : DerivedAlert) (before : Option AlertRecord) :
    (taken c read now d before).resolvedAt = none := by
  rcases before with _ | r
  · rfl
  · by_cases hr : r.resolvedAt = none
    · rw [taken, if_pos hr]
      exact hr
    · rw [taken, if_neg hr]
      rfl

/-- Of two alerts of one id, the later gives the numbers. -/
theorem taken_taken {d d' : DerivedAlert} (h : recordId c d.key = recordId c d'.key)
    (before : Option AlertRecord) :
    taken c read now d' (some (taken c read now d before)) = taken c read now d' before := by
  rw [taken, if_pos (taken_live d before)]
  rcases before with _ | r
  · rw [taken, taken, h]
    rfl
  · by_cases hr : r.resolvedAt = none
    · rw [taken, taken, if_pos hr, if_pos hr]
      rfl
    · rw [taken, taken, if_neg hr, if_neg hr]
      rfl

/-- Merging one alert, by what it makes of its record. -/
theorem observeAlert_eq (acc : MergeResult) (d : DerivedAlert) :
    observeAlert c read now acc d =
      { records := acc.records.set (recordId c d.key)
          (taken c read now d (acc.records.get? (recordId c d.key)))
        fired := if startsUnread read (recordId c d.key) (acc.records.get? (recordId c d.key)) then
          acc.fired ++ [started c d now false] else acc.fired } := by
  rw [observeAlert]
  rcases acc.records.get? (recordId c d.key) with _ | r
  · rcases hread : read.contains (recordId c d.key) with _ | _ <;>
      simp only [taken, startsUnread, hread] <;> rfl
  · by_cases hr : r.resolvedAt = none
    · simp only [taken, startsUnread, hr]
      rfl
    · simp only [taken, startsUnread, hr, if_false, ne_eq, not_false_eq_true, decide_true, if_true]
      rfl

end Alert


/-! ### The records of one connection -/

section Connection

variable {c : Int} {read : List String} {now : Int}

/-- The first alert of a list that is recorded under an id. -/
def firstFor (c : Int) (alerts : List DerivedAlert) (id : String) : Option DerivedAlert :=
  alerts.find? fun d => recordId c d.key = id

theorem firstFor_concat (alerts : List DerivedAlert) (d : DerivedAlert) (id : String) :
    firstFor c (alerts ++ [d]) id =
      (firstFor c alerts id).or (if recordId c d.key = id then some d else none) := by
  rw [firstFor, List.find?_append]
  by_cases h : recordId c d.key = id <;> simp [firstFor, h]

theorem firstFor_some {alerts : List DerivedAlert} {id : String} {d : DerivedAlert}
    (h : firstFor c alerts id = some d) : recordId c d.key = id := by
  simpa using List.find?_some h

theorem firstFor_eq_none {alerts : List DerivedAlert} {id : String} :
    firstFor c alerts id = none ↔ id ∉ firingIds c alerts := by
  simp [firstFor, firingIds]

theorem mem_firingIds_of_firstFor {alerts : List DerivedAlert} {id : String} {d : DerivedAlert}
    (h : firstFor c alerts id = some d) : id ∈ firingIds c alerts := by
  by_contra hid
  rw [firstFor_eq_none.mpr hid] at h
  nomatch h

theorem get?_observeAlert (acc : MergeResult) (d : DerivedAlert) (id : String) :
    (observeAlert c read now acc d).records.get? id =
      if recordId c d.key = id then some (taken c read now d (acc.records.get? id))
      else acc.records.get? id := by
  rw [observeAlert_eq]
  refine (OrderedMap.get?_set ..).trans ?_
  by_cases h : recordId c d.key = id
  · rw [if_pos h, if_pos h, h]
  · rw [if_neg h, if_neg h]

/-- After a list of alerts, by the last of the id. -/
theorem get?_observeAll_eq (acc : MergeResult) (alerts : List DerivedAlert) (id : String) :
    (observeAll c read now acc alerts).records.get? id =
      match lastFor c alerts id with
      | some d => some (taken c read now d (acc.records.get? id))
      | none => acc.records.get? id := by
  induction alerts using List.reverseRecOn with
  | nil => rfl
  | append_singleton alerts d ih =>
    rw [observeAll_concat, get?_observeAlert, lastFor_concat, ih]
    by_cases h : recordId c d.key = id
    · rw [if_pos h, if_pos h]
      rcases hlast : lastFor c alerts id with _ | d'
      · rfl
      · dsimp only
        rw [taken_taken ((lastFor_some c hlast).trans h.symm)]
    · rw [if_neg h, if_neg h]

theorem mem_observeAlert_fired_iff {acc : MergeResult} {d : DerivedAlert} {f : AlertRecord} :
    f ∈ (observeAlert c read now acc d).fired ↔ f ∈ acc.fired ∨
      f = started c d now false ∧ startsUnread read f.id (acc.records.get? f.id) = true := by
  rw [observeAlert_eq]
  dsimp only
  by_cases h : startsUnread read (recordId c d.key) (acc.records.get? (recordId c d.key)) = true
  · rw [if_pos h, List.mem_append, List.mem_singleton]
    refine or_congr_right ⟨fun hf => ⟨hf, ?_⟩, And.left⟩
    rw [hf]
    exact h
  · rw [if_neg h]
    refine ⟨Or.inl, fun hf => hf.resolve_right ?_⟩
    rintro ⟨rfl, hs⟩
    exact h hs

theorem startsUnread_taken (d : DerivedAlert) (id : String) (before : Option AlertRecord) :
    startsUnread read id (some (taken c read now d before)) = false := by
  rw [startsUnread, taken_live]
  rfl

/-- What is announced: the first alert of each id that starts unread. -/
theorem mem_observeAll_fired_iff {acc : MergeResult} {alerts : List DerivedAlert}
    {f : AlertRecord} : f ∈ (observeAll c read now acc alerts).fired ↔ f ∈ acc.fired ∨
      ∃ d, firstFor c alerts f.id = some d ∧ f = started c d now false ∧
        startsUnread read f.id (acc.records.get? f.id) = true := by
  induction alerts using List.reverseRecOn with
  | nil => simp [observeAll, firstFor]
  | append_singleton alerts d ih =>
    rw [observeAll_concat, mem_observeAlert_fired_iff, ih, or_assoc, firstFor_concat,
      get?_observeAll_eq]
    apply or_congr_right
    rcases hfirst : firstFor c alerts f.id with _ | d'
    · have hlast : lastFor c alerts f.id = none :=
        (lastFor_eq_none c).mpr (firstFor_eq_none.mp hfirst)
      rw [hlast]
      dsimp only
      constructor
      · rintro (⟨d', h, -⟩ | ⟨hf, hs⟩)
        · cases h
        · exact ⟨d, if_pos (by rw [hf]; rfl), hf, hs⟩
      · rintro ⟨d', h, hf, hs⟩
        right
        obtain rfl := Option.some.inj (Option.ite_none_right_eq_some.mp h).2
        exact ⟨hf, hs⟩
    · obtain ⟨last, hlast⟩ : ∃ last, lastFor c alerts f.id = some last := by
        apply Option.ne_none_iff_exists'.mp
        rw [ne_eq, lastFor_eq_none, not_not]
        exact mem_firingIds_of_firstFor hfirst
      rw [hlast]
      dsimp only
      rw [startsUnread_taken]
      constructor
      · rintro (h | ⟨-, hs⟩)
        · exact h
        · cases hs
      · exact Or.inl

/-- Nothing is announced twice. -/
theorem nodup_observeAll_fired {acc : MergeResult} {alerts : List DerivedAlert}
    (h : (acc.fired.map AlertRecord.id).Nodup)
    (hfresh : ∀ f ∈ acc.fired, f.id ∉ firingIds c alerts) :
    ((observeAll c read now acc alerts).fired.map AlertRecord.id).Nodup := by
  induction alerts using List.reverseRecOn with
  | nil => exact h
  | append_singleton alerts d ih =>
    have hids : firingIds c (alerts ++ [d]) = firingIds c alerts ++ [recordId c d.key] :=
      List.map_append
    rw [hids] at hfresh
    have hrest := ih fun f hf hid => hfresh f hf (List.mem_append_left _ hid)
    rw [observeAll_concat, observeAlert_eq]
    dsimp only
    split
    case isTrue hs =>
      rw [List.map_append, List.map_singleton, List.nodup_append]
      refine ⟨hrest, List.nodup_singleton _, ?_⟩
      rintro id hid _ hlast rfl
      rw [List.mem_singleton] at hlast
      obtain ⟨f, hf, rfl⟩ := List.mem_map.mp hid
      rcases mem_observeAll_fired_iff.mp hf with hf | ⟨d', hfirst, -, -⟩
      · exact hfresh f hf (List.mem_append_right _ (List.mem_singleton.mpr hlast))
      · -- an alert that was there before is live by now
        rw [get?_observeAll_eq, ← show f.id = recordId c d.key from hlast] at hs
        rcases hl : lastFor c alerts f.id with _ | last
        · exact (lastFor_eq_none c).mp hl (mem_firingIds_of_firstFor hfirst)
        · rw [hl] at hs
          dsimp only at hs
          rw [startsUnread_taken] at hs
          cases hs
    case isFalse => exact hrest

/-- What a connection's alerts make of the record of an id. -/
def after (c : Int) (read : List String) (now : Int) (alerts : List DerivedAlert) (id : String)
    (before : Option AlertRecord) : Option AlertRecord :=
  match lastFor c alerts id with
  | some d => some (taken c read now d before)
  | none => before.map fun r =>
      if r.connectionId = c ∧ r.resolvedAt = none then { r with resolvedAt := some now } else r

/-- **One connection, read at one id.** -/
theorem get?_observeConnection {acc : MergeResult} (h : Keyed acc.records)
    (alerts : List DerivedAlert) (id : String) :
    (observeConnection read now acc (c, alerts)).records.get? id =
      after c read now alerts id (acc.records.get? id) := by
  rw [after]
  rcases hlast : lastFor c alerts id with _ | d
  · exact get?_observeConnection_of_none read now h ((lastFor_eq_none c).mp hlast)
  · have hk := h.observeAll c read now alerts
    have hget : (observeAll c read now acc alerts).records.get? id = _ :=
      get?_observeAll_eq acc alerts id
    rw [hlast] at hget
    have hin : id ∈ firingIds c alerts := by
      by_contra hid
      rw [(lastFor_eq_none c).mpr hid] at hlast
      nomatch hlast
    rw [observeConnection_eq]
    dsimp only
    rw [get?_resolveGone hk, hget]
    dsimp only
    rw [Option.map_some, if_neg]
    rw [gone, hk id _ hget]
    simp [hin]

end Connection


/-! ### The records of all connections -/

section Walk

variable {read : List String} {now : Int}

/-- An id that only one connection writes. -/
structure Mine (c : Int) (id : String) (m : Records) : Prop where
  named : ∀ {c' key}, id = recordId c' key → c' = c
  held : ∀ {r}, m.get? id = some r → r.connectionId = c

theorem Owned.mine_recordId {m : Records} (h : Owned m) (c : Int) (key : String) :
    Mine c (recordId c key) m :=
  ⟨fun hid => (connectionId_of_recordId hid).symm, fun hr => h.2 c key _ hr⟩

theorem Owned.mine_held {m : Records} (h : Owned m) {id : String} {r : AlertRecord}
    (hr : m.get? id = some r) : Mine r.connectionId id m := by
  refine ⟨?_, fun hs => ?_⟩
  · rintro c' key rfl
    exact (h.2 c' key r hr).symm
  · rw [hr] at hs
    rw [Option.some.inj hs]

theorem Mine.not_mem {c c' : Int} {id : String} {m : Records} (h : Mine c id m) (hne : c' ≠ c)
    (alerts : List DerivedAlert) : id ∉ firingIds c' alerts := by
  intro hid
  obtain ⟨d, -, rfl⟩ := List.mem_map.mp hid
  exact hne (h.named rfl)

/-- The walk leaves the ids of a connection that is not observed. -/
theorem get?_observe_of_not_mem {c : Int} {id : String} {es : List (Int × List DerivedAlert)}
    {acc : MergeResult} (hacc : Keyed acc.records) (hmine : Mine c id acc.records)
    (hc : c ∉ es.map Prod.fst) :
    (es.foldl (observeConnection read now) acc).records.get? id = acc.records.get? id := by
  refine get?_observe_quiet es (fun e he => ?_) acc hacc fun r hr => .inr ?_
  · refine hmine.not_mem ?_ e.2
    rintro rfl
    exact hc (List.mem_map.mpr ⟨e, he, rfl⟩)
  · rwa [hmine.held hr]

theorem after_held {c : Int} {alerts : List DerivedAlert} {id : String}
    {before : Option AlertRecord} (h : ∀ r, before = some r → r.connectionId = c)
    {r : AlertRecord} (hr : after c read now alerts id before = some r) : r.connectionId = c := by
  rw [after] at hr
  split at hr
  case h_1 d hlast =>
    obtain rfl := Option.some.inj hr
    rcases before with _ | r
    · rfl
    · by_cases hlive : r.resolvedAt = none
      · rw [taken, if_pos hlive]
        rfl
      · rw [taken, if_neg hlive]
        rfl
  case h_2 =>
    obtain ⟨s, rfl, rfl⟩ := Option.map_eq_some_iff.mp hr
    split <;> exact h s rfl

/-- **The walk, read at an id of an observed connection.** -/
theorem get?_observe_of_mem {c : Int} {alerts : List DerivedAlert} {id : String}
    {es : List (Int × List DerivedAlert)} {acc : MergeResult} (hacc : Keyed acc.records)
    (hmine : Mine c id acc.records) (hnodup : (es.map Prod.fst).Nodup)
    (hmem : (c, alerts) ∈ es) :
    (es.foldl (observeConnection read now) acc).records.get? id =
      after c read now alerts id (acc.records.get? id) := by
  induction es generalizing acc with
  | nil => cases hmem
  | cons e es ih =>
    obtain ⟨c', alerts'⟩ := e
    obtain ⟨hc', hnodup⟩ := List.nodup_cons.mp hnodup
    have hget : (observeConnection read now acc (c', alerts')).records.get? id = _ :=
      get?_observeConnection hacc alerts' id
    have hkeyed := hacc.observeConnection read now c' alerts'
    rw [List.foldl_cons]
    rcases List.mem_cons.mp hmem with heq | hmem
    · obtain ⟨rfl, rfl⟩ := Prod.mk.inj heq
      rw [get?_observe_of_not_mem (c := c) hkeyed ⟨hmine.named, fun hr => ?_⟩ hc', hget]
      rw [hget] at hr
      exact after_held (fun r hr => hmine.held hr) hr
    · have hne : c' ≠ c := by
        rintro rfl
        exact hc' (List.mem_map.mpr ⟨_, hmem, rfl⟩)
      have hsame : (observeConnection read now acc (c', alerts')).records.get? id =
          acc.records.get? id := by
        rw [get?_observeConnection_of_none read now hacc (hmine.not_mem hne alerts')]
        rcases hr : acc.records.get? id with _ | r
        · rfl
        · rw [Option.map_some, if_neg]
          rintro ⟨hc, -⟩
          exact hne (hc.symm.trans (hmine.held hr))
      rw [ih hkeyed ⟨hmine.named, fun hr => hmine.held (hsame ▸ hr)⟩ hnodup hmem, hsame]

theorem mem_observe_fired {es : List (Int × List DerivedAlert)} {acc : MergeResult}
    (hacc : Owned acc.records) (hnodup : (es.map Prod.fst).Nodup) {f : AlertRecord} :
    f ∈ (es.foldl (observeConnection read now) acc).fired ↔ f ∈ acc.fired ∨
      ∃ c alerts d, (c, alerts) ∈ es ∧ firstFor c alerts f.id = some d ∧
        f = started c d now false ∧
        startsUnread read f.id (acc.records.get? f.id) = true := by
  induction es generalizing acc with
  | nil => simp
  | cons e es ih =>
    obtain ⟨c, alerts⟩ := e
    obtain ⟨hc, hnodup⟩ := List.nodup_cons.mp hnodup
    have hfired : f ∈ (observeConnection read now acc (c, alerts)).fired ↔ _ :=
      mem_observeAll_fired_iff
    rw [List.foldl_cons, ih (hacc.observeConnection read now c alerts) hnodup, hfired, or_assoc]
    apply or_congr_right
    -- what another connection starts is as it was before this one
    have hsame : ∀ {c' alerts' d}, (c', alerts') ∈ es → firstFor c' alerts' f.id = some d →
        (observeConnection read now acc (c, alerts)).records.get? f.id =
          acc.records.get? f.id := by
      intro c' alerts' d hmem hfirst
      have hmine := hacc.mine_recordId c' d.key
      rw [firstFor_some hfirst] at hmine
      have hother : c' ∉ [(c, alerts)].map Prod.fst := by
        rw [List.map_singleton, List.mem_singleton]
        rintro rfl
        exact hc (List.mem_map.mpr ⟨_, hmem, rfl⟩)
      exact get?_observe_of_not_mem hacc.1 hmine hother
    constructor
    · rintro (⟨d, hfirst, hf, hs⟩ | ⟨c', alerts', d, hmem, hfirst, hf, hs⟩)
      · exact ⟨c, alerts, d, List.mem_cons_self, hfirst, hf, hs⟩
      · rw [hsame hmem hfirst] at hs
        exact ⟨c', alerts', d, List.mem_cons_of_mem _ hmem, hfirst, hf, hs⟩
    · rintro ⟨c', alerts', d, hmem, hfirst, hf, hs⟩
      rcases List.mem_cons.mp hmem with heq | hmem
      · obtain ⟨rfl, rfl⟩ := Prod.mk.inj heq
        exact .inl ⟨d, hfirst, hf, hs⟩
      · right
        rw [← hsame hmem hfirst] at hs
        exact ⟨c', alerts', d, hmem, hfirst, hf, hs⟩

theorem nodup_observe_fired {es : List (Int × List DerivedAlert)} {acc : MergeResult}
    (hnodup : (es.map Prod.fst).Nodup) (h : (acc.fired.map AlertRecord.id).Nodup)
    (hfresh : ∀ f ∈ acc.fired, ∀ e ∈ es, f.id ∉ firingIds e.1 e.2) :
    ((es.foldl (observeConnection read now) acc).fired.map AlertRecord.id).Nodup := by
  induction es generalizing acc with
  | nil => exact h
  | cons e es ih =>
    obtain ⟨c, alerts⟩ := e
    obtain ⟨hc, hnodup⟩ := List.nodup_cons.mp hnodup
    refine ih hnodup (nodup_observeAll_fired h fun f hf => hfresh f hf _ List.mem_cons_self) ?_
    intro f hf e he
    rcases mem_observeAll_fired_iff.mp hf with hf | ⟨d, hfirst, -, -⟩
    · exact hfresh f hf e (List.mem_cons_of_mem _ he)
    · rw [← firstFor_some hfirst]
      refine not_mem_firingIds ?_ e.2 d.key
      intro hsame
      exact hc (List.mem_map.mpr ⟨e, he, hsame⟩)

end Walk


/-! ### One sweep -/

section Sweep

variable {input : MergeInput}

/-- Some connection has the id for itself. -/
theorem Owned.exists_mine {m : Records} (h : Owned m) (id : String) : ∃ c, Mine c id m := by
  rcases hr : m.get? id with _ | r
  · by_cases hid : ∃ c key, id = recordId c key
    · obtain ⟨c, key, rfl⟩ := hid
      exact ⟨c, h.mine_recordId c key⟩
    · refine ⟨0, fun hname => absurd ⟨_, _, hname⟩ hid, fun hs => ?_⟩
      rw [hr] at hs
      nomatch hs
  · exact ⟨r.connectionId, h.mine_held hr⟩

/-- **A sweep, read at one id**: the connection that has the id decides alone. -/
theorem get?_mergeAlerts (hprevious : Owned input.previous) {c : Int} {id : String}
    (hmine : Mine c id input.previous) :
    (mergeAlerts input).records.get? id =
      let kept := (input.previous.get? id).filter (carried input.known input.now)
      match input.observed.get? c with
      | some alerts => after c input.read input.now alerts id kept
      | none => kept := by
  have hcarry := hprevious.carryForward input.known input.now
  have hget := get?_carryForward hprevious.1 input.known input.now id
  have hmine' : Mine c id (carryForward input.previous input.known input.now) := by
    refine ⟨hmine.named, fun hr => ?_⟩
    rw [hget] at hr
    exact hmine.held (Option.filter_eq_some_iff.mp hr).1
  dsimp only
  rw [← hget]
  rcases hobs : input.observed.get? c with _ | alerts
  · refine get?_observe_of_not_mem hcarry.1 hmine' fun hmem => ?_
    obtain ⟨⟨c', alerts⟩, hentry, rfl⟩ := List.mem_map.mp hmem
    rw [OrderedMap.mem_entries.mp hentry] at hobs
    nomatch hobs
  · exact get?_observe_of_mem hcarry.1 hmine' input.observed.nodup
      (OrderedMap.mem_entries.mpr hobs)

/-- No record of the alert is firing. -/
def MergeInput.NotLive (input : MergeInput) (id : String) : Prop :=
  ∀ r, input.previous.get? id = some r → r.resolvedAt ≠ none

/-- No record of the alert is left: a recovery is forgotten after the retention. -/
def MergeInput.FirstSight (input : MergeInput) (id : String) : Prop :=
  ∀ r, input.previous.get? id = some r → expired input.now r = true

/-- What a sweep makes of each record. -/
structure LifeCycle (input : MergeInput) (result : MergeResult) : Prop where
  unobserved : ∀ {id r}, input.previous.get? id = some r → r.connectionId ∈ input.known →
    input.observed.get? r.connectionId = none →
    result.records.get? id = if expired input.now r then none else some r
  still : ∀ {c alerts id d r}, input.observed.get? c = some alerts →
    lastFor c alerts id = some d → input.previous.get? id = some r → r.resolvedAt = none →
    result.records.get? id = some { r with
      ruleKey := d.ruleKey, severity := d.severity, params := d.params, since := d.since
      lastSeen := input.now }
  starts : ∀ {c alerts id d}, input.observed.get? c = some alerts →
    lastFor c alerts id = some d → input.NotLive id →
    ∃ isRead, result.records.get? id = some (started c d input.now isRead) ∧
      (isRead = true ↔ input.FirstSight id ∧ id ∈ input.read)
  cleared : ∀ {alerts id r}, input.previous.get? id = some r →
    input.observed.get? r.connectionId = some alerts → r.resolvedAt = none →
    id ∉ firingIds r.connectionId alerts →
    result.records.get? id = some { r with resolvedAt := some input.now }
  recovered : ∀ {alerts id r}, input.previous.get? id = some r →
    input.observed.get? r.connectionId = some alerts → r.resolvedAt ≠ none →
    id ∉ firingIds r.connectionId alerts →
    result.records.get? id = if expired input.now r then none else some r
  only : ∀ {id r}, result.records.get? id = some r →
    (∃ before, input.previous.get? id = some before ∧ before.connectionId ∈ input.known) ∨
      ∃ c alerts, input.observed.get? c = some alerts ∧ id ∈ firingIds c alerts
  fired : ∀ f, f ∈ result.fired ↔ ∃ c alerts d, input.observed.get? c = some alerts ∧
    firstFor c alerts f.id = some d ∧ f = started c d input.now false ∧
    input.NotLive f.id ∧ ¬(input.FirstSight f.id ∧ f.id ∈ input.read)
  once : (result.fired.map AlertRecord.id).Nodup


variable (hprevious : Owned input.previous)
  (hknown : ∀ c alerts, input.observed.get? c = some alerts → c ∈ input.known)

include hprevious in
theorem get?_mergeAlerts_held {id : String} {r : AlertRecord}
    (hr : input.previous.get? id = some r) (hc : r.connectionId ∈ input.known) :
    (mergeAlerts input).records.get? id =
      let kept := if expired input.now r then none else some r
      match input.observed.get? r.connectionId with
      | some alerts => after r.connectionId input.read input.now alerts id kept
      | none => kept := by
  have hkept : (some r).filter (carried input.known input.now) =
      if expired input.now r then none else some r := by
    rcases he : expired input.now r with _ | _ <;> simp [carried, hc, he]
  rw [get?_mergeAlerts hprevious (hprevious.mine_held hr), hr, hkept]

/-- The record of an observed alert, by the alerts of its connection. -/
theorem after_of_lastFor {c : Int} {alerts : List DerivedAlert} {id : String} {d : DerivedAlert}
    (hlast : lastFor c alerts id = some d) (read : List String) (now : Int)
    (before : Option AlertRecord) :
    after c read now alerts id before = some (taken c read now d before) := by
  rw [after, hlast]

theorem after_of_not_mem {c : Int} {alerts : List DerivedAlert} {id : String}
    (hid : id ∉ firingIds c alerts) (read : List String) (now : Int)
    (before : Option AlertRecord) :
    after c read now alerts id before = before.map fun r =>
      if r.connectionId = c ∧ r.resolvedAt = none then { r with resolvedAt := some now }
      else r := by
  rw [after, (lastFor_eq_none c).mpr hid]

theorem expired_of_live {now : Int} {r : AlertRecord} (h : r.resolvedAt = none) :
    expired now r = false := by
  rw [expired, h]

include hprevious hknown in
/-- What is kept of the record of an observed alert. -/
theorem kept_of_observed {c : Int} {alerts : List DerivedAlert} {key : String}
    (hobs : input.observed.get? c = some alerts) :
    (input.previous.get? (recordId c key)).filter (carried input.known input.now) =
      (input.previous.get? (recordId c key)).filter fun r => !expired input.now r := by
  rcases hr : input.previous.get? (recordId c key) with _ | r
  · rfl
  · have hc : r.connectionId ∈ input.known := by
      rw [hprevious.2 c key r hr]
      exact hknown c alerts hobs
    rw [Option.filter_some, Option.filter_some, carried, List.contains_eq_mem, decide_eq_true hc,
      Bool.true_and]

include hprevious hknown in
theorem startsUnread_iff {c : Int} {alerts : List DerivedAlert} {key : String}
    (hobs : input.observed.get? c = some alerts) :
    startsUnread input.read (recordId c key)
        ((input.previous.get? (recordId c key)).filter (carried input.known input.now)) = true ↔
      input.NotLive (recordId c key) ∧
        ¬(input.FirstSight (recordId c key) ∧ recordId c key ∈ input.read) := by
  rw [kept_of_observed hprevious hknown hobs]
  rw [MergeInput.NotLive, MergeInput.FirstSight]
  rcases hr : input.previous.get? (recordId c key) with _ | r
  · simp [startsUnread]
  · by_cases hlive : r.resolvedAt = none
    · simp [startsUnread, hlive, expired_of_live hlive, Option.filter_some]
    · rcases he : expired input.now r with _ | _ <;>
        simp [startsUnread, hlive, he, Option.filter_some]

include hprevious hknown in
/-- **What one sweep makes of every record.** -/
theorem lifeCycle_mergeAlerts : LifeCycle input (mergeAlerts input) where
  unobserved := by
    intro id r hr hc hobs
    rw [get?_mergeAlerts_held hprevious hr hc, hobs]
  still := by
    intro c alerts id d r hobs hlast hr hlive
    obtain rfl := lastFor_some c hlast
    have hc := hprevious.2 c d.key r hr
    have hid := hprevious.1 _ r hr
    have hget := get?_mergeAlerts_held hprevious hr (hc ▸ hknown c alerts hobs)
    rw [expired_of_live hlive, hc, hobs] at hget
    dsimp only at hget
    rw [after_of_lastFor hlast] at hget
    rw [hget, if_neg Bool.false_ne_true, taken, if_pos hlive, AlertRecord.withShape, ← hid, ← hc]
  starts := by
    intro c alerts id d hobs hlast hnot
    obtain rfl := lastFor_some c hlast
    have hget := get?_mergeAlerts hprevious (hprevious.mine_recordId c d.key)
    rw [kept_of_observed hprevious hknown hobs, hobs] at hget
    dsimp only at hget
    rw [after_of_lastFor hlast] at hget
    rw [MergeInput.NotLive] at hnot
    rw [hget, MergeInput.FirstSight]
    rcases hr : input.previous.get? (recordId c d.key) with _ | r
    · exact ⟨_, rfl, by simp⟩
    · have hlive := hnot r hr
      rcases he : expired input.now r with _ | _
      · refine ⟨false, ?_, by simp [he]⟩
        simp [Option.filter_some, he, taken, hlive]
      · refine ⟨input.read.contains (recordId c d.key), ?_, by simp [he]⟩
        simp [Option.filter_some, he, taken]
  cleared := by
    intro alerts id r hr hobs hlive hid
    have hget := get?_mergeAlerts_held hprevious hr (hknown _ _ hobs)
    rw [expired_of_live hlive, hobs] at hget
    dsimp only at hget
    rw [hget, after_of_not_mem hid, if_neg Bool.false_ne_true, Option.map_some, if_pos ⟨rfl, hlive⟩]
  recovered := by
    intro alerts id r hr hobs hlive hid
    have hget := get?_mergeAlerts_held hprevious hr (hknown _ _ hobs)
    rw [hobs] at hget
    dsimp only at hget
    rw [hget, after_of_not_mem hid]
    split
    · rfl
    · rw [Option.map_some, if_neg fun h => hlive h.2]
  only := by
    intro id r hr
    have hkept : ∀ {s}, (input.previous.get? id).filter (carried input.known input.now) = some s →
        ∃ before, input.previous.get? id = some before ∧ before.connectionId ∈ input.known := by
      intro s hs
      obtain ⟨hbefore, hcarried⟩ := Option.filter_eq_some_iff.mp hs
      rw [carried, Bool.and_eq_true, List.contains_iff_mem] at hcarried
      exact ⟨s, hbefore, hcarried.1⟩
    obtain ⟨c, hmine⟩ := hprevious.exists_mine id
    rw [get?_mergeAlerts hprevious hmine] at hr
    dsimp only at hr
    split at hr
    case h_1 alerts hobs =>
      by_cases hid : id ∈ firingIds c alerts
      · exact .inr ⟨c, alerts, hobs, hid⟩
      · rw [after_of_not_mem hid] at hr
        obtain ⟨s, hs, -⟩ := Option.map_eq_some_iff.mp hr
        exact .inl (hkept hs)
    case h_2 => exact .inl (hkept hr)
  fired := by
    intro f
    have hcarry := hprevious.carryForward input.known input.now
    refine (mem_observe_fired hcarry input.observed.nodup).trans ?_
    rw [get?_carryForward hprevious.1]
    constructor
    · rintro (hf | ⟨c, alerts, d, hmem, hfirst, hf, hs⟩)
      · nomatch hf
      · have hobs := OrderedMap.mem_entries.mp hmem
        rw [← firstFor_some hfirst, startsUnread_iff hprevious hknown hobs, firstFor_some hfirst]
          at hs
        exact ⟨c, alerts, d, hobs, hfirst, hf, hs⟩
    · rintro ⟨c, alerts, d, hobs, hfirst, hf, hs⟩
      rw [← firstFor_some hfirst, ← startsUnread_iff hprevious hknown hobs, firstFor_some hfirst]
        at hs
      exact .inr ⟨c, alerts, d, OrderedMap.mem_entries.mpr hobs, hfirst, hf, hs⟩
  once := nodup_observe_fired input.observed.nodup List.nodup_nil fun f hf => nomatch hf

end Sweep


/-- **Alert records follow one life cycle per alert**, whatever order the connections are observed
in. -/
theorem merge_life_cycle (input : MergeInput) (hprevious : Owned input.previous)
    (hknown : ∀ c alerts, input.observed.get? c = some alerts → c ∈ input.known) :
    LifeCycle input (mergeAlerts input) ∧
      ∀ observed : OrderedMap Int (List DerivedAlert),
        observed.entries.Perm input.observed.entries → ∀ id,
        (mergeAlerts { input with observed := observed }).records.get? id =
          (mergeAlerts input).records.get? id := by
  refine ⟨lifeCycle_mergeAlerts hprevious hknown, fun observed hperm id => ?_⟩
  obtain ⟨c, hmine⟩ := hprevious.exists_mine id
  have hobs : observed.get? c = input.observed.get? c := by
    ext alerts
    rw [← OrderedMap.mem_entries, ← OrderedMap.mem_entries, hperm.mem_iff]
  let other : MergeInput := { input with observed := observed }
  have hprevious' : Owned other.previous := hprevious
  have hmine' : Mine c id other.previous := hmine
  have hother := get?_mergeAlerts hprevious' hmine'
  have hself := get?_mergeAlerts hprevious hmine
  dsimp only [other] at hother hself
  rw [hother, hself, hobs]

/-- A lagging group fires, and is not found by the next sweep. -/
theorem lag_cleared_once :
    let first := (⟨.empty, []⟩ : Center).merge (sweepOf 0 [lagAlert])
    ∃ r, first.records.get? (recordId 7 lagAlert.key) = some r ∧
      (mergeAlerts (first.input (sweepOf 60000 []))).records.get? (recordId 7 lagAlert.key) =
        some { r with resolvedAt := some 60000 } := by
  intro first
  have hfirst : first.records.get? (recordId 7 lagAlert.key) = some (started 7 lagAlert 0 false) :=
    rfl
  have howned : Owned (first.input (sweepOf 60000 [])).previous :=
    Owned.empty.step (.round (sweepOf 0 [lagAlert]))
  have hlife := (merge_life_cycle (first.input (sweepOf 60000 [])) howned
    (observedKnown_sweepOf 60000 [])).1
  exact ⟨_, hfirst, hlife.cleared hfirst rfl rfl List.not_mem_nil⟩

end MqStudio.Alert
