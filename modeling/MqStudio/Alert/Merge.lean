import MqStudio.Alert.Center

/-!
# What a merge does

Each part of `mergeAlerts` by its effect on the lookup of one record, and from
these the two facts the caller relies on.

* `get?_observeAll`, `get?_resolveGone`, `get?_carryForward`: the three passes.
* `Settled`: what the result of a merge says of the observation it was made from.
* `merge_known_and_idempotent_iff`: the result holds records of known connections
  only, and merging the same observation again changes nothing, exactly where
  every connection that was observed with an alert is known.

A record id names its connection (`connectionId_of_recordId`), so the passes of
different connections do not meet.
-/

namespace MqStudio.Alert

open Lib

/-! ### Record ids -/

theorem intLit_injective {i j : Int} (h : Json.intLit i = Json.intLit j) : i = j := by
  have hi := Json.integer_intLit i
  rw [h, Json.integer_intLit] at hi
  exact (Option.some.inj hi).symm

/-- The text before the first colon. -/
theorem takeWhile_intLit (i : Int) (cs : List Char) :
    (Json.intLit i ++ ':' :: cs).takeWhile (· ≠ ':') = Json.intLit i := by
  rw [List.takeWhile_append_of_pos]
  · simp
  · intro c hc
    have := Json.isNumber_all (Json.isNumber_intLit i) c hc
    simp only [ne_eq, decide_not, Bool.not_eq_true', decide_eq_false_iff_not]
    rintro rfl
    exact absurd this (by decide)

/-- **A record id names its connection.** -/
theorem connectionId_of_recordId {c c' : Int} {k k' : String} (h : recordId c k = recordId c' k') :
    c = c' := by
  have hl := congrArg String.toList h
  simp only [recordId, String.toList_append, String.toList_ofList, List.append_assoc] at hl
  have ht := congrArg (List.takeWhile (· ≠ ':')) hl
  rw [show ":".toList = [':'] from rfl, List.singleton_append, List.singleton_append,
    takeWhile_intLit, takeWhile_intLit] at ht
  exact intLit_injective ht

theorem key_of_recordId {c : Int} {k k' : String} (h : recordId c k = recordId c k') : k = k' := by
  have hl := congrArg String.toList h
  simp only [recordId, String.toList_append] at hl
  exact String.toList_inj.mp (List.append_cancel_left hl)

/-! ### Records under their own ids -/

/-- Every record is stored under its own id. -/
def Keyed (m : Records) : Prop := ∀ k r, m.get? k = some r → r.id = k

theorem Keyed.empty : Keyed .empty := by
  intro k r h
  simp at h

theorem Keyed.set {m : Records} (h : Keyed m) (r : AlertRecord) : Keyed (m.set r.id r) := by
  intro k s hs
  rw [OrderedMap.get?_set] at hs
  split at hs
  · rename_i hk
    exact (Option.some.inj hs) ▸ hk
  · exact h k s hs

/-- A walk over the values that writes each one back, changed, or leaves it. -/
theorem get?_foldl_values {m : Records} (h : Keyed m) (f : AlertRecord → Option AlertRecord)
    (acc : Records) (id : String) :
    (m.values.foldl (fun acc r => match f r with
      | some r' => acc.set r.id r'
      | none => acc) acc).get? id = ((m.get? id).bind f).or (acc.get? id) := by
  have hes : ∀ es : List (String × AlertRecord), (es.map Prod.fst).Nodup →
      (∀ e ∈ es, e.2.id = e.1) → ∀ acc : Records,
      ((es.map Prod.snd).foldl (fun acc r => match f r with
        | some r' => acc.set r.id r'
        | none => acc) acc).get? id = ((es.lookup id).bind f).or (acc.get? id) := by
    intro es
    induction es with
    | nil => intro _ _ acc; simp
    | cons e es ih =>
      intro hn hk acc
      obtain ⟨k, r⟩ := e
      rw [List.map_cons, List.nodup_cons] at hn
      have hr : r.id = k := hk (k, r) (by simp)
      have hrest := ih hn.2 fun e he => hk e (by simp [he])
      rw [List.map_cons, List.foldl_cons, hrest, List.lookup_cons]
      by_cases hid : id = k
      · subst hid
        have hnone : es.lookup id = none := by
          rw [List.lookup_eq_none_iff]
          intro e he
          rw [bne_iff_ne]
          rintro rfl
          exact hn.1 (List.mem_map.mpr ⟨e, he, rfl⟩)
        cases hf : f r with
        | none => simp [hnone, hf]
        | some r' => simp [hnone, hf, OrderedMap.get?_set, hr]
      · have hb : (id == k) = false := by simpa using hid
        cases hf : f r with
        | none => simp [hb]
        | some r' => simp [hb, OrderedMap.get?_set, hr, Ne.symm hid]
  exact hes m.entries m.nodup (fun e he => h e.1 e.2 (OrderedMap.mem_entries.mp he)) acc

/-! ### Carrying forward -/

/-- What is carried: records of known connections that have not expired. -/
def carried (known : List Int) (now : Int) (r : AlertRecord) : Bool :=
  known.contains r.connectionId && !expired now r

theorem carryForward_eq (previous : Records) (known : List Int) (now : Int) :
    carryForward previous known now = previous.values.foldl (fun acc r =>
      match (if carried known now r then some r else none) with
      | some r' => acc.set r.id r'
      | none => acc) .empty := by
  unfold carryForward
  congr 1
  funext acc r
  by_cases hk : r.connectionId ∈ known <;> by_cases he : expired now r = true <;>
    simp [carried, hk, he]

theorem get?_carryForward {previous : Records} (h : Keyed previous) (known : List Int) (now : Int)
    (id : String) :
    (carryForward previous known now).get? id =
      (previous.get? id).filter (carried known now) := by
  rw [carryForward_eq, get?_foldl_values h]
  cases previous.get? id with
  | none => rfl
  | some r => by_cases hc : carried known now r <;> simp [hc, Option.filter]

/-- Whatever the keys of `previous` are, the records carried are stored under their own ids. -/
theorem carryForward_facts (previous : Records) (known : List Int) (now : Int) :
    Keyed (carryForward previous known now) ∧
      ∀ k r, (carryForward previous known now).get? k = some r → carried known now r = true := by
  rw [carryForward_eq]
  generalize previous.values = rs
  have h : ∀ acc : Records, Keyed acc ∧ (∀ k r, acc.get? k = some r → carried known now r = true) →
      Keyed (rs.foldl (fun acc r => match (if carried known now r then some r else none) with
        | some r' => acc.set r.id r'
        | none => acc) acc) ∧
      ∀ k r, (rs.foldl (fun acc r => match (if carried known now r then some r else none) with
        | some r' => acc.set r.id r'
        | none => acc) acc).get? k = some r → carried known now r = true := by
    induction rs with
    | nil => exact fun _ ha => ha
    | cons r rs ih =>
      intro acc ha
      rw [List.foldl_cons]
      apply ih
      by_cases hc : carried known now r = true
      · rw [if_pos hc]
        refine ⟨ha.1.set r, fun k s hs => ?_⟩
        rw [OrderedMap.get?_set] at hs
        split at hs
        · exact Option.some.inj hs ▸ hc
        · exact ha.2 k s hs
      · rw [if_neg hc]
        exact ha
  exact h .empty ⟨Keyed.empty, fun k r hr => by simp at hr⟩

/-! ### Observing -/

/-- The record of an id is firing. -/
def Firing (m : Records) (id : String) : Prop := ∃ r, m.get? id = some r ∧ r.resolvedAt = none

section Observe

variable (c : Int) (read : List String) (now : Int)

theorem get?_observeAlert_of_ne {acc : MergeResult} {d : DerivedAlert} {id : String}
    (h : recordId c d.key ≠ id) :
    (observeAlert c read now acc d).records.get? id = acc.records.get? id := by
  unfold observeAlert
  dsimp only
  split
  · split <;> exact (OrderedMap.get?_set _ _ _ _).trans (if_neg h)
  · exact (OrderedMap.get?_set _ _ _ _).trans (if_neg h)

/-- A firing alert moves its numbers, and announces nothing. -/
theorem observeAlert_of_firing {acc : MergeResult} {d : DerivedAlert} {r : AlertRecord}
    (hr : acc.records.get? (recordId c d.key) = some r) (hf : r.resolvedAt = none) :
    observeAlert c read now acc d =
      { acc with records := acc.records.set (recordId c d.key) (r.withShape c d now) } := by
  unfold observeAlert
  simp only [hr, hf, if_true]

/-- Any other alert gets a record of its own, announced where it is unread. -/
theorem observeAlert_of_not_firing {acc : MergeResult} {d : DerivedAlert}
    (h : ¬ Firing acc.records (recordId c d.key)) :
    ∃ f : AlertRecord, f.id = recordId c d.key ∧ f.connectionId = c ∧ f.resolvedAt = none ∧
      f.withShape c d now = f ∧
      (f.read = true ↔ acc.records.get? (recordId c d.key) = none ∧ recordId c d.key ∈ read) ∧
      observeAlert c read now acc d =
        { records := acc.records.set (recordId c d.key) f
          fired := if f.read then acc.fired else acc.fired ++ [f] } := by
  unfold observeAlert
  dsimp only
  cases hr : acc.records.get? (recordId c d.key) with
  | none => exact ⟨_, rfl, rfl, rfl, rfl, by simp, rfl⟩
  | some r =>
    have hf : r.resolvedAt ≠ none := fun hf => h ⟨r, hr, hf⟩
    simp only [hf, if_false]
    exact ⟨_, rfl, rfl, rfl, rfl, by simp, rfl⟩

/-- After it, the record of the alert is firing and says what was observed. -/
theorem observeAlert_self (acc : MergeResult) (d : DerivedAlert) :
    ∃ r, (observeAlert c read now acc d).records.get? (recordId c d.key) = some r ∧
      r.resolvedAt = none ∧ r.withShape c d now = r := by
  by_cases h : Firing acc.records (recordId c d.key)
  · obtain ⟨r, hr, hf⟩ := h
    rw [observeAlert_of_firing c read now hr hf]
    exact ⟨r.withShape c d now, (OrderedMap.get?_set _ _ _ _).trans (if_pos rfl), hf, rfl⟩
  · obtain ⟨f, -, -, hf, hs, -, he⟩ := observeAlert_of_not_firing c read now h
    rw [he]
    exact ⟨f, (OrderedMap.get?_set _ _ _ _).trans (if_pos rfl), hf, hs⟩

/-- A firing record goes on firing, as read as it was. -/
theorem observeAlert_keeps_firing {acc : MergeResult} {id : String} {r : AlertRecord}
    (hr : acc.records.get? id = some r) (hf : r.resolvedAt = none) (d : DerivedAlert) :
    ∃ r', (observeAlert c read now acc d).records.get? id = some r' ∧ r'.resolvedAt = none ∧
      r'.read = r.read := by
  by_cases hid : recordId c d.key = id
  · subst hid
    rw [observeAlert_of_firing c read now hr hf]
    exact ⟨r.withShape c d now, (OrderedMap.get?_set _ _ _ _).trans (if_pos rfl), hf, rfl⟩
  · exact ⟨r, (get?_observeAlert_of_ne c read now hid).trans hr, hf, rfl⟩

theorem Keyed.observeAlert {acc : MergeResult} (h : Keyed acc.records) (d : DerivedAlert) :
    Keyed (observeAlert c read now acc d).records := by
  by_cases hf : Firing acc.records (recordId c d.key)
  · obtain ⟨r, hr, hf⟩ := hf
    rw [observeAlert_of_firing c read now hr hf]
    exact h.set (r.withShape c d now)
  · obtain ⟨f, hid, -, -, -, -, he⟩ := observeAlert_of_not_firing c read now hf
    rw [he, ← hid]
    exact h.set f

/-- The records after it are old ones, or one of the observed connection. -/
theorem observeAlert_origin {acc : MergeResult} {d : DerivedAlert} {id : String} {r : AlertRecord}
    (h : (observeAlert c read now acc d).records.get? id = some r) :
    acc.records.get? id = some r ∨ (id = recordId c d.key ∧ r.connectionId = c ∧
      r.resolvedAt = none) := by
  by_cases hid : recordId c d.key = id
  · subst hid
    obtain ⟨s, hs, hf, hshape⟩ := observeAlert_self c read now acc d
    obtain rfl := Option.some.inj (hs.symm.trans h)
    exact Or.inr ⟨rfl, by rw [← hshape]; rfl, hf⟩
  · exact Or.inl ((get?_observeAlert_of_ne c read now hid).symm.trans h)

/-- What it announces is the record of the observed alert. -/
theorem observeAlert_fired {acc : MergeResult} {d : DerivedAlert} {f : AlertRecord}
    (h : f ∈ (observeAlert c read now acc d).fired) :
    f ∈ acc.fired ∨ (f.connectionId = c ∧ f.id = recordId c d.key) := by
  by_cases hf : Firing acc.records (recordId c d.key)
  · obtain ⟨r, hr, hf⟩ := hf
    rw [observeAlert_of_firing c read now hr hf] at h
    exact Or.inl h
  · obtain ⟨g, hid, hg, -, -, -, he⟩ := observeAlert_of_not_firing c read now hf
    rw [he] at h
    dsimp only at h
    split at h
    · exact Or.inl h
    · rcases List.mem_append.mp h with h | h
      · exact Or.inl h
      · rw [List.mem_singleton] at h
        subst h
        exact Or.inr ⟨hg, hid⟩

/-- Nothing that was announced is taken back. -/
theorem mem_observeAlert_fired {acc : MergeResult} {f : AlertRecord} (h : f ∈ acc.fired)
    (d : DerivedAlert) : f ∈ (observeAlert c read now acc d).fired := by
  by_cases hf : Firing acc.records (recordId c d.key)
  · obtain ⟨r, hr, hf⟩ := hf
    rw [observeAlert_of_firing c read now hr hf]
    exact h
  · obtain ⟨g, -, -, -, -, -, he⟩ := observeAlert_of_not_firing c read now hf
    rw [he]
    dsimp only
    split
    · exact h
    · exact List.mem_append_left _ h

/-! ### Observing a list -/

/-- The ids under which a connection's alerts are recorded. -/
def firingIds (alerts : List DerivedAlert) : List String :=
  alerts.map fun d => recordId c d.key

/-- The last alert of a list that is recorded under an id. -/
def lastFor (alerts : List DerivedAlert) (id : String) : Option DerivedAlert :=
  alerts.reverse.find? fun d => recordId c d.key = id

/-- Merge a list of observed alerts. -/
def observeAll (acc : MergeResult) (alerts : List DerivedAlert) : MergeResult :=
  alerts.foldl (observeAlert c read now) acc

theorem observeAll_concat (acc : MergeResult) (alerts : List DerivedAlert) (d : DerivedAlert) :
    observeAll c read now acc (alerts ++ [d]) =
      observeAlert c read now (observeAll c read now acc alerts) d := by
  simp [observeAll]

theorem lastFor_concat (alerts : List DerivedAlert) (d : DerivedAlert) (id : String) :
    lastFor c (alerts ++ [d]) id = if recordId c d.key = id then some d else lastFor c alerts id := by
  by_cases h : recordId c d.key = id <;> simp [lastFor, h]

theorem lastFor_eq_none {alerts : List DerivedAlert} {id : String} :
    lastFor c alerts id = none ↔ id ∉ firingIds c alerts := by
  simp only [firingIds, lastFor, List.find?_eq_none, List.mem_reverse, decide_eq_true_eq, List.mem_map,
    not_exists, not_and]

theorem lastFor_some {alerts : List DerivedAlert} {id : String} {d : DerivedAlert}
    (h : lastFor c alerts id = some d) : recordId c d.key = id := by
  simpa using List.find?_some h

/-- The record of an id after a list of alerts: untouched where no alert has the id, else firing
and as the last such alert says. -/
theorem get?_observeAll (acc : MergeResult) (alerts : List DerivedAlert) (id : String) :
    (lastFor c alerts id = none ∧
      (observeAll c read now acc alerts).records.get? id = acc.records.get? id) ∨
    ∃ d r, lastFor c alerts id = some d ∧
      (observeAll c read now acc alerts).records.get? id = some r ∧ r.resolvedAt = none ∧
      r.withShape c d now = r := by
  induction alerts using List.reverseRecOn with
  | nil => exact Or.inl ⟨rfl, rfl⟩
  | append_singleton alerts d ih =>
    rw [observeAll_concat, lastFor_concat]
    by_cases hid : recordId c d.key = id
    · subst hid
      rw [if_pos rfl]
      obtain ⟨r, hr, hf, hs⟩ := observeAlert_self c read now (observeAll c read now acc alerts) d
      exact Or.inr ⟨d, r, rfl, hr, hf, hs⟩
    · rw [if_neg hid, get?_observeAlert_of_ne c read now hid]
      exact ih

theorem Keyed.observeAll {acc : MergeResult} (h : Keyed acc.records)
    (alerts : List DerivedAlert) : Keyed (observeAll c read now acc alerts).records := by
  induction alerts using List.reverseRecOn with
  | nil => exact h
  | append_singleton alerts d ih =>
    rw [observeAll_concat]
    exact ih.observeAlert c read now d

theorem observeAll_fired {acc : MergeResult} {alerts : List DerivedAlert} {f : AlertRecord}
    (h : f ∈ (observeAll c read now acc alerts).fired) :
    f ∈ acc.fired ∨ (f.connectionId = c ∧ f.id ∈ firingIds c alerts) := by
  induction alerts using List.reverseRecOn with
  | nil => exact Or.inl h
  | append_singleton alerts d ih =>
    rw [observeAll_concat] at h
    rcases observeAlert_fired c read now h with h | ⟨hc, hid⟩
    · exact (ih h).imp_right fun h => ⟨h.1, by
        rw [firingIds, List.map_append]
        exact List.mem_append_left _ h.2⟩
    · exact Or.inr ⟨hc, by simp [firingIds, hid]⟩

theorem mem_observeAll_fired {acc : MergeResult} {f : AlertRecord} (h : f ∈ acc.fired)
    (alerts : List DerivedAlert) : f ∈ (observeAll c read now acc alerts).fired := by
  induction alerts using List.reverseRecOn with
  | nil => exact h
  | append_singleton alerts d ih =>
    rw [observeAll_concat]
    exact mem_observeAlert_fired c read now ih d

/-- Alerts that are all firing announce nothing, and write the last shape over each record. -/
theorem observeAll_of_firing {acc : MergeResult} {alerts : List DerivedAlert}
    (h : ∀ d ∈ alerts, Firing acc.records (recordId c d.key)) :
    (observeAll c read now acc alerts).fired = acc.fired ∧
      ∀ id, (observeAll c read now acc alerts).records.get? id =
        (acc.records.get? id).map fun r => match lastFor c alerts id with
          | some d => r.withShape c d now
          | none => r := by
  induction alerts using List.reverseRecOn with
  | nil => exact ⟨rfl, fun id => by simp [observeAll, lastFor]⟩
  | append_singleton alerts d ih =>
    obtain ⟨hfired, hget⟩ := ih fun e he => h e (by simp [he])
    obtain ⟨r, hr, hf⟩ := h d (by simp)
    have hr' := hget (recordId c d.key)
    rw [hr, Option.map_some] at hr'
    have hf' : (match lastFor c alerts (recordId c d.key) with
        | some d => r.withShape c d now
        | none => r).resolvedAt = none := by
      cases lastFor c alerts (recordId c d.key) <;> exact hf
    rw [observeAll_concat, observeAlert_of_firing c read now hr' hf']
    refine ⟨hfired, fun id => ?_⟩
    dsimp only
    rw [OrderedMap.get?_set, lastFor_concat]
    by_cases hid : recordId c d.key = id
    · subst hid
      rw [if_pos rfl, if_pos rfl, hr, Option.map_some]
      cases lastFor c alerts (recordId c d.key) <;> rfl
    · rw [if_neg hid, if_neg hid, hget]

end Observe

/-! ### Resolving -/

/-- Whether a connection was firing a record and no longer is. -/
def gone (c : Int) (stillFiring : List String) (r : AlertRecord) : Bool :=
  r.connectionId = c && r.resolvedAt = none && !stillFiring.contains r.id

theorem get?_resolveGone {m : Records} (h : Keyed m) (c : Int) (stillFiring : List String)
    (now : Int) (id : String) :
    (resolveGone c stillFiring now m).get? id = (m.get? id).map fun r =>
      if gone c stillFiring r then { r with resolvedAt := some now } else r := by
  have he : resolveGone c stillFiring now m = m.values.foldl (fun acc r =>
      match (if gone c stillFiring r then some { r with resolvedAt := some now } else none) with
      | some r' => acc.set r.id r'
      | none => acc) m := by
    unfold resolveGone
    congr 1
    funext acc r
    by_cases hc : r.connectionId = c <;> by_cases hr : r.resolvedAt = none <;>
      by_cases hs : r.id ∈ stillFiring <;> simp [gone, hc, hr, hs]
  rw [he, get?_foldl_values h]
  cases hm : m.get? id with
  | none => simp
  | some r =>
    cases hg : gone c stillFiring r with
    | false => simp [hg]
    | true => simp [hg]

theorem Keyed.resolveGone {m : Records} (h : Keyed m) (c : Int) (stillFiring : List String)
    (now : Int) : Keyed (resolveGone c stillFiring now m) := by
  intro k r hr
  rw [get?_resolveGone h] at hr
  obtain ⟨s, hs, rfl⟩ := Option.map_eq_some_iff.mp hr
  split <;> exact h k s hs

/-! ### One connection -/

variable {read : List String} {now : Int}

theorem observeConnection_eq (acc : MergeResult) (c : Int) (alerts : List DerivedAlert) :
    observeConnection read now acc (c, alerts) =
      { observeAll c read now acc alerts with
        records := resolveGone c (firingIds c alerts) now
          (observeAll c read now acc alerts).records } := rfl

variable (read now) in
theorem Keyed.observeConnection {acc : MergeResult} (h : Keyed acc.records) (c : Int)
    (alerts : List DerivedAlert) :
    Keyed (observeConnection read now acc (c, alerts)).records :=
  (h.observeAll c read now alerts).resolveGone c _ now

variable (read now) in
/-- A record no alert of the connection has the id of is resolved if the connection was firing
it, and untouched otherwise. -/
theorem get?_observeConnection_of_none {acc : MergeResult} (h : Keyed acc.records) {c : Int}
    {alerts : List DerivedAlert} {id : String} (hid : id ∉ firingIds c alerts) :
    (observeConnection read now acc (c, alerts)).records.get? id =
      (acc.records.get? id).map fun r =>
        if r.connectionId = c ∧ r.resolvedAt = none then { r with resolvedAt := some now } else r := by
  rw [observeConnection_eq]
  dsimp only
  rw [get?_resolveGone (h.observeAll c read now alerts)]
  rcases get?_observeAll c read now acc alerts id with ⟨-, hget⟩ | ⟨d, r, hlast, -, -, -⟩
  · rw [hget]
    cases hr : acc.records.get? id with
    | none => rfl
    | some r =>
      have hri : r.id ∉ firingIds c alerts := by rwa [h id r hr]
      simp only [Option.map_some, gone, hri, List.contains_eq_mem, decide_false, Bool.not_false,
        and_true, Bool.and_eq_true, decide_eq_true_eq]
  · exact absurd ((lastFor_eq_none c).mpr hid) (by rw [hlast]; simp)

variable (read now) in
/-- A record the connection fires is firing afterwards, and as its last alert says. -/
theorem get?_observeConnection_of_some {acc : MergeResult} (h : Keyed acc.records) {c : Int}
    {alerts : List DerivedAlert} {id : String} {d : DerivedAlert}
    (hlast : lastFor c alerts id = some d) :
    ∃ r, (observeConnection read now acc (c, alerts)).records.get? id = some r ∧
      r.resolvedAt = none ∧ r.withShape c d now = r := by
  rcases get?_observeAll c read now acc alerts id with ⟨hn, -⟩ | ⟨d', r, hl, hget, hf, hs⟩
  · rw [hn] at hlast
    cases hlast
  · obtain rfl := Option.some.inj (hl.symm.trans hlast)
    have hk := h.observeAll c read now alerts
    have hin : r.id ∈ firingIds c alerts := by
      rw [hk id r hget]
      by_contra hn
      rw [(lastFor_eq_none c).mpr hn] at hlast
      cases hlast
    refine ⟨r, ?_, hf, hs⟩
    rw [observeConnection_eq]
    dsimp only
    rw [get?_resolveGone hk, hget, Option.map_some]
    simp [gone, hin]

theorem connectionId_of_shape {r : AlertRecord} {c : Int} {d : DerivedAlert}
    (h : r.withShape c d now = r) : r.connectionId = c := by
  rw [← h]
  rfl

/-- Another connection's ids are none of this one's. -/
theorem not_mem_firingIds {c c' : Int} (h : c ≠ c') (alerts : List DerivedAlert) (k : String) :
    recordId c' k ∉ firingIds c alerts := by
  simp only [firingIds, List.mem_map, not_exists, not_and]
  intro d _ he
  exact h (connectionId_of_recordId he)

/-! ### The result -/

/-- What the records say of the connections observed so far: nothing has expired, what was
observed is firing and as observed, and nothing else of these connections is firing. -/
structure Settled (now : Int) (observed : List (Int × List DerivedAlert)) (m : Records) : Prop where
  keyed : Keyed m
  live : ∀ {id r}, m.get? id = some r → expired now r = false
  shown : ∀ {c alerts}, (c, alerts) ∈ observed → ∀ {id d}, lastFor c alerts id = some d →
    ∃ r, m.get? id = some r ∧ r.resolvedAt = none ∧ r.withShape c d now = r
  rest : ∀ {c alerts}, (c, alerts) ∈ observed → ∀ {id r}, m.get? id = some r →
    r.connectionId = c → r.resolvedAt = none → id ∈ firingIds c alerts

variable (read now) in
theorem Settled.observeConnection {observed : List (Int × List DerivedAlert)} {acc : MergeResult}
    (h : Settled now observed acc.records) {c : Int} (alerts : List DerivedAlert)
    (hc : c ∉ observed.map Prod.fst) :
    Settled now (observed ++ [(c, alerts)])
      (observeConnection read now acc (c, alerts)).records := by
  have hk := h.keyed.observeConnection read now c alerts
  have hother : ∀ {c' alerts'}, (c', alerts') ∈ observed → c ≠ c' := by
    rintro c' alerts' hm rfl
    exact hc (List.mem_map.mpr ⟨_, hm, rfl⟩)
  -- A record after the pass is one the connection fires, or an old one, perhaps resolved.
  have hcases : ∀ {id r}, (Alert.observeConnection read now acc (c, alerts)).records.get? id =
      some r → (id ∈ firingIds c alerts ∧ r.connectionId = c ∧ r.resolvedAt = none) ∨
        (id ∉ firingIds c alerts ∧ ∃ s, acc.records.get? id = some s ∧
          r = if s.connectionId = c ∧ s.resolvedAt = none then { s with resolvedAt := some now }
            else s) := by
    intro id r hr
    by_cases hid : id ∈ firingIds c alerts
    · cases hl : lastFor c alerts id with
      | none => exact absurd hid ((lastFor_eq_none c).mp hl)
      | some d =>
        obtain ⟨s, hs, hf, hshape⟩ := get?_observeConnection_of_some read now h.keyed hl
        obtain rfl := Option.some.inj (hs.symm.trans hr)
        exact Or.inl ⟨hid, connectionId_of_shape hshape, hf⟩
    · rw [get?_observeConnection_of_none _ _ h.keyed hid] at hr
      obtain ⟨s, hs, rfl⟩ := Option.map_eq_some_iff.mp hr
      exact Or.inr ⟨hid, s, hs, rfl⟩
  refine ⟨hk, ?_, ?_, ?_⟩
  · intro id r hr
    rcases hcases hr with ⟨-, -, hf⟩ | ⟨-, s, hs, rfl⟩
    · simp [expired, hf]
    · split
      · simp [expired, resolvedRetentionMs]
      · exact h.live hs
  · intro c' alerts' hm id d hl
    rcases List.mem_append.mp hm with hm | hm
    · obtain ⟨r, hr, hf, hs⟩ := h.shown hm hl
      have hne := hother hm
      have hid : id ∉ firingIds c alerts := by
        rw [← lastFor_some c' hl]
        exact not_mem_firingIds hne _ _
      refine ⟨r, ?_, hf, hs⟩
      rw [get?_observeConnection_of_none _ _ h.keyed hid, hr, Option.map_some,
        if_neg (fun hx => hne (hx.1.symm.trans (connectionId_of_shape hs)))]
    · obtain ⟨rfl, rfl⟩ := Prod.mk.inj (List.mem_singleton.mp hm)
      exact get?_observeConnection_of_some read now h.keyed hl
  · intro c' alerts' hm id r hr hrc hf
    rcases List.mem_append.mp hm with hm | hm
    · have hne := hother hm
      rcases hcases hr with ⟨-, hrc', -⟩ | ⟨-, s, hs, rfl⟩
      · exact absurd (hrc'.symm.trans hrc) hne
      · split at hrc
        · rename_i hx
          exact absurd (hx.1.symm.trans hrc) hne
        · rename_i hx
          rw [if_neg hx] at hf
          exact h.rest hm hs hrc hf
    · obtain ⟨rfl, rfl⟩ := Prod.mk.inj (List.mem_singleton.mp hm)
      rcases hcases hr with ⟨hid, -, -⟩ | ⟨-, s, hs, rfl⟩
      · exact hid
      · split at hf
        · cases hf
        · rename_i hx
          rw [if_neg hx] at hrc
          exact absurd ⟨hrc, hf⟩ hx

/-- **The result of a merge is settled** for what was observed. -/
theorem settled_mergeAlerts (input : MergeInput) :
    Settled input.now input.observed.entries (mergeAlerts input).records := by
  have hcarry := carryForward_facts input.previous input.known input.now
  have h0 : Settled input.now [] (carryForward input.previous input.known input.now) := by
    refine ⟨hcarry.1, fun {id r} hr => ?_, fun h => by simp at h, fun h => by simp at h⟩
    have := hcarry.2 id r hr
    simp only [carried, Bool.and_eq_true, Bool.not_eq_true'] at this
    exact this.2
  have hrun : ∀ (es done : List (Int × List DerivedAlert)) (acc : MergeResult),
      ((done ++ es).map Prod.fst).Nodup → Settled input.now done acc.records →
      Settled input.now (done ++ es)
        (es.foldl (observeConnection input.read input.now) acc).records := by
    intro es
    induction es with
    | nil => intro done acc _ h; simpa using h
    | cons e es ih =>
      intro done acc hn h
      obtain ⟨c, alerts⟩ := e
      have hc : c ∉ done.map Prod.fst := by
        rw [List.map_append, List.map_cons, List.nodup_append] at hn
        intro hm
        exact hn.2.2 _ hm _ (by simp) rfl
      have := ih (done ++ [(c, alerts)]) _ (by simpa using hn)
        (h.observeConnection input.read input.now alerts hc)
      simpa using this
  exact hrun input.observed.entries [] _ (by simpa using input.observed.nodup) h0

/-! ### Merging again -/

/-- Merging what a state is settled for changes no record and announces nothing. -/
theorem observe_settled {observed : List (Int × List DerivedAlert)} {m : Records}
    (h : Settled now observed m) : ∀ es : List (Int × List DerivedAlert), (∀ e ∈ es, e ∈ observed) →
    ∀ acc : MergeResult, Keyed acc.records → (∀ id, acc.records.get? id = m.get? id) →
      (es.foldl (observeConnection read now) acc).fired = acc.fired ∧
        ∀ id, (es.foldl (observeConnection read now) acc).records.get? id = m.get? id := by
  intro es
  induction es with
  | nil => intro _ acc _ hm; exact ⟨rfl, hm⟩
  | cons e es ih =>
    intro hes acc hk hm
    obtain ⟨c, alerts⟩ := e
    have he : (c, alerts) ∈ observed := hes _ (by simp)
    have hfiring : ∀ d ∈ alerts, Firing acc.records (recordId c d.key) := by
      intro d hd
      cases hl : lastFor c alerts (recordId c d.key) with
      | none => exact absurd (List.mem_map.mpr ⟨d, hd, rfl⟩) ((lastFor_eq_none c).mp hl)
      | some d' =>
        obtain ⟨r, hr, hf, -⟩ := h.shown he hl
        exact ⟨r, (hm _).trans hr, hf⟩
    obtain ⟨hfired, hget⟩ := observeAll_of_firing c read now hfiring
    have hsame : ∀ id, (observeConnection read now acc (c, alerts)).records.get? id =
        m.get? id := by
      intro id
      rw [observeConnection_eq]
      dsimp only
      rw [get?_resolveGone (hk.observeAll c read now alerts), hget, hm]
      cases hr : m.get? id with
      | none => rfl
      | some r =>
        have hshape : (match lastFor c alerts id with
            | some d => r.withShape c d now
            | none => r) = r := by
          cases hl : lastFor c alerts id with
          | none => rfl
          | some d =>
            obtain ⟨s, hs, -, hsh⟩ := h.shown he hl
            obtain rfl := Option.some.inj (hs.symm.trans hr)
            exact hsh
        have hgone : gone c (firingIds c alerts) r = false := by
          by_contra hg
          simp only [gone, Bool.not_eq_false, Bool.and_eq_true, decide_eq_true_eq,
            Bool.not_eq_true', List.contains_eq_mem, decide_eq_false_iff_not] at hg
          exact hg.2 (h.keyed id r hr ▸ h.rest he hr hg.1.1 hg.1.2)
        simp [hshape, hgone]
    have hrest := ih (fun e he => hes e (by simp [he])) (observeConnection read now acc (c, alerts))
      (hk.observeConnection _ _ c alerts) hsame
    exact ⟨hrest.1.trans hfired, hrest.2⟩

/-- Every record and every announcement is of a known connection. -/
def KnownOnly (known : List Int) (result : MergeResult) : Prop :=
  (∀ r ∈ result.records.values, r.connectionId ∈ known) ∧ ∀ f ∈ result.fired, f.connectionId ∈ known

/-- Merging the same observation again, at the same time and onto the result, announces nothing
and changes no record. -/
def Idempotent (input : MergeInput) : Prop :=
  let again := mergeAlerts { input with previous := (mergeAlerts input).records }
  again.fired = [] ∧ ∀ id, again.records.get? id = (mergeAlerts input).records.get? id

theorem idempotent_of_known {input : MergeInput}
    (h : ∀ r ∈ (mergeAlerts input).records.values, r.connectionId ∈ input.known) :
    Idempotent input := by
  have hs := settled_mergeAlerts input
  refine observe_settled hs _ (fun _ he => he) _
    (carryForward_facts (mergeAlerts input).records input.known input.now).1 fun id => ?_
  rw [get?_carryForward hs.keyed]
  cases hr : (mergeAlerts input).records.get? id with
  | none => rfl
  | some r =>
    have hkn := h r (OrderedMap.mem_values.mpr ⟨id, hr⟩)
    simp [Option.filter, carried, hkn, hs.live hr]

theorem knownOnly_of_observed_known {input : MergeInput}
    (h : ∀ e ∈ input.observed.entries, e.2 ≠ [] → e.1 ∈ input.known) :
    KnownOnly input.known (mergeAlerts input) := by
  have hcarry := carryForward_facts input.previous input.known input.now
  have hrun : ∀ (es : List (Int × List DerivedAlert)), (∀ e ∈ es, e.2 ≠ [] → e.1 ∈ input.known) →
      ∀ acc : MergeResult, Keyed acc.records →
      (∀ id r, acc.records.get? id = some r → r.connectionId ∈ input.known) →
      (∀ f ∈ acc.fired, f.connectionId ∈ input.known) →
      (∀ id r, (es.foldl (observeConnection input.read input.now) acc).records.get? id = some r →
        r.connectionId ∈ input.known) ∧
      ∀ f ∈ (es.foldl (observeConnection input.read input.now) acc).fired,
        f.connectionId ∈ input.known := by
    intro es
    induction es with
    | nil => intro _ acc _ hr hf; exact ⟨hr, hf⟩
    | cons e es ih =>
      intro hes acc hk hr hf
      obtain ⟨c, alerts⟩ := e
      have hc : alerts ≠ [] → c ∈ input.known := hes (c, alerts) (by simp)
      refine ih (fun e he => hes e (by simp [he])) _ (hk.observeConnection _ _ c alerts) ?_ ?_
      · intro id r hget
        by_cases hid : id ∈ firingIds c alerts
        · cases hl : lastFor c alerts id with
          | none => exact absurd hid ((lastFor_eq_none c).mp hl)
          | some d =>
            obtain ⟨s, hs, -, hsh⟩ := get?_observeConnection_of_some input.read input.now hk
              hl
            obtain rfl := Option.some.inj (hs.symm.trans hget)
            rw [connectionId_of_shape hsh]
            apply hc
            rintro rfl
            simp [firingIds] at hid
        · rw [get?_observeConnection_of_none _ _ hk hid] at hget
          obtain ⟨s, hs, rfl⟩ := Option.map_eq_some_iff.mp hget
          split <;> exact hr id s hs
      · intro f hfired
        rcases observeAll_fired c input.read input.now hfired with hfired | ⟨rfl, hid⟩
        · exact hf f hfired
        · apply hc
          rintro rfl
          simp [firingIds] at hid
  have h' := hrun input.observed.entries h ⟨_, []⟩ hcarry.1 (by
    intro id r hr
    have := hcarry.2 id r hr
    simp only [carried, Bool.and_eq_true, List.contains_eq_mem, decide_eq_true_eq] at this
    exact this.1) (by simp)
  refine ⟨fun r hr => ?_, h'.2⟩
  obtain ⟨id, hid⟩ := OrderedMap.mem_values.mp hr
  exact h'.1 id r hid

/-- **A merge keeps to known connections and is idempotent exactly where every connection it was
given alerts of is known.** -/
theorem merge_known_and_idempotent_iff (input : MergeInput) :
    KnownOnly input.known (mergeAlerts input) ∧ Idempotent input ↔
      ∀ c alerts, input.observed.get? c = some alerts → alerts ≠ [] → c ∈ input.known := by
  constructor
  · rintro ⟨⟨hrec, -⟩, -⟩ c alerts hobs hne
    obtain ⟨d, hd⟩ := List.exists_mem_of_ne_nil _ hne
    cases hl : lastFor c alerts (recordId c d.key) with
    | none => exact absurd (List.mem_map.mpr ⟨d, hd, rfl⟩) ((lastFor_eq_none c).mp hl)
    | some d' =>
      obtain ⟨r, hr, -, hs⟩ := (settled_mergeAlerts input).shown
        (OrderedMap.mem_entries.mpr hobs) hl
      rw [← connectionId_of_shape hs]
      exact hrec r (OrderedMap.mem_values.mpr ⟨_, hr⟩)
  · intro h
    have hk : KnownOnly input.known (mergeAlerts input) :=
      knownOnly_of_observed_known fun e he hne =>
        h e.1 e.2 (OrderedMap.mem_entries.mp he) hne
    exact ⟨hk, idempotent_of_known hk.1⟩

/-- A lagging group. -/
def lagAlert : DerivedAlert where
  key := "group-lag-orders"
  ruleKey := ⟨"groupLag"⟩
  severity := .warn
  params := [("lag", .number 12043)]
  since := none

/-- An observation of a connection whose profile has just been deleted. -/
def deletedConnection : MergeInput where
  previous := .empty
  observed := OrderedMap.empty.set 7 [lagAlert]
  known := []
  read := []
  now := 0

theorem merge_records_unknown_connection :
    ¬ (KnownOnly deletedConnection.known (mergeAlerts deletedConnection) ∧
      Idempotent deletedConnection) := by
  rintro ⟨-, hfired, -⟩
  revert hfired
  decide

end MqStudio.Alert
