import MqStudio.Kinesis.Stream

/-!
# What an edit of a Kinesis stream does

`updateStream` checks what it is asked for in front of each operation, and not in front of them all.

* `UpdateRight`: an edit that is refused has sent nothing, and one that succeeds did what was asked.
* `Clean`: no check that refuses the edit comes behind an operation.
* `update_right_iff`: every edit is right exactly if it is clean.
-/

namespace MqStudio.Kinesis

open Lib.Errors Lib.Text

/-- The outcome of an edit of a stored stream. -/
structure UpdateRight (r : Progress × Option UpdateError) (stored : Stream) (s : StreamSpec) :
    Prop where
  refused : ∀ refusal, r.2 = some (.refused refusal) → r.1.calls = []
  mode : r.2 = none → r.1.stream.mode = s.mode
  retention : r.2 = none → r.1.stream.retention =
    if 0 < s.retentionHours.toInt then s.retentionHours.toInt else stored.retention
  shards : r.2 = none → s.mode = .provisioned → 0 < s.shards.toInt →
    r.1.stream.openShards = s.shards.toInt

/-- A retention is given that the service does not take. -/
def OutOfBounds (s : StreamSpec) : Prop :=
  0 < s.retentionHours.toInt ∧
    (s.retentionHours.toInt < minRetentionHours ∨ maxRetentionHours < s.retentionHours.toInt)

/-- No check that refuses the edit comes behind an operation, and the count that is sent is the one
that is given.  A count that the conversion leaves below one is refused by the service. -/
structure Clean (stored : Stream) (s : StreamSpec) : Prop where
  count : s.mode ≠ stored.mode → s.mode = .onDemand → ¬Resizes stored s.shards
  kept : OutOfBounds s → ¬Resizes stored s.shards → s.mode = stored.mode
  resized : OutOfBounds s → s.mode = .provisioned → Resizes stored s.shards →
    s.shards.toInt32.toInt < 1
  fits : ¬OutOfBounds s → s.mode = .provisioned → Resizes stored s.shards →
    s.shards.toInt32.toInt = s.shards.toInt ∨ s.shards.toInt32.toInt < 1

variable {c : Conn} {service : Service} {stored : Stream} {s : StreamSpec} {p : Progress}

/-! ### The three operations -/

/-- A call and its wait: an error, or the change with nothing else to report. -/
theorem callAndAwait_cases (p : Progress) (service : Service) (m : Mutation)
    (describe : Error → Error) :
    (∃ q err, p.callAndAwait service m describe = (q, some err)) ∨
      service.refuse m = none ∧
        p.callAndAwait service m describe = (⟨m.apply p.stream, p.calls ++ [m]⟩, none) := by
  rw [Progress.callAndAwait, Progress.call]
  cases hrefuse : service.refuse m with
  | some err => exact .inl ⟨_, _, rfl⟩
  | none =>
    cases hawait : service.await m with
    | some err => exact .inl ⟨_, err, rfl⟩
    | none => exact .inr ⟨rfl, rfl⟩

/-- The mode stage: an error, or the asked mode with the rest as it was stored. -/
theorem changeMode_cases (service : Service) (stored : Stream) (s : StreamSpec) :
    (∃ q err, changeMode service ⟨stored, []⟩ stored.mode s.mode = (q, some err)) ∨
      ∃ q, changeMode service ⟨stored, []⟩ stored.mode s.mode = (q, none) ∧
        q.stream.mode = s.mode ∧ q.stream.openShards = stored.openShards ∧
        q.stream.retention = stored.retention ∧ (s.mode = stored.mode → q.calls = []) := by
  rw [changeMode]
  split
  · rename_i hsame
    exact .inr ⟨_, rfl, hsame.symm, rfl, rfl, fun _ => rfl⟩
  · rename_i hswitch
    rcases callAndAwait_cases ⟨stored, []⟩ service (.updateStreamMode s.mode) id with
      herr | ⟨-, hok⟩
    · exact .inl herr
    · exact .inr ⟨_, hok, rfl, rfl, rfl, fun hsame => absurd hsame hswitch⟩

theorem apply_retentionCall (hours old : Int) (stream : Stream) :
    (retentionCall hours old).apply stream =
      { stream with retentionPeriodHours := some (Int32.ofInt hours) } := by
  rw [retentionCall]
  split <;> rfl

/-- The retention stage. -/
theorem changeRetention_spec (p : Progress) (stored : Stream) (s : StreamSpec) (changed : Bool)
    (hstored : p.stream.retention = stored.retention) :
    (∀ refusal, (changeRetention service p stored s.spec.attributes changed).2 =
        some (.refused refusal) →
      (changeRetention service p stored s.spec.attributes changed).1 = p ∧
        (OutOfBounds s ∨ changed = false)) ∧
    ((changeRetention service p stored s.spec.attributes changed).2 = none →
      ¬OutOfBounds s ∧
      (changeRetention service p stored s.spec.attributes changed).1.stream.mode = p.stream.mode ∧
      (changeRetention service p stored s.spec.attributes changed).1.stream.openShards =
        p.stream.openShards ∧
      (changeRetention service p stored s.spec.attributes changed).1.stream.retention =
        if 0 < s.retentionHours.toInt then s.retentionHours.toInt else stored.retention) := by
  rw [changeRetention, retentionOf_spec]
  by_cases hgiven : s.retentionHours.toInt ≤ 0
  · have hnot : ¬OutOfBounds s := fun h => absurd h.1 (not_lt.mpr hgiven)
    rw [if_pos hgiven, if_neg (not_lt.mpr hgiven)]
    dsimp only [Option.filter]
    cases changed with
    | true => exact ⟨(fun _ h => nomatch h), fun _ => ⟨hnot, rfl, rfl, hstored⟩⟩
    | false => exact ⟨fun _ _ => ⟨rfl, .inr rfl⟩, (fun h => nomatch h)⟩
  · rw [if_neg hgiven]
    by_cases hbounds : s.retentionHours.toInt < minRetentionHours ∨
        maxRetentionHours < s.retentionHours.toInt
    · rw [if_pos hbounds]
      exact ⟨fun _ _ => ⟨rfl, .inl ⟨not_le.mp hgiven, hbounds⟩⟩, (fun h => nomatch h)⟩
    · have hnot : ¬OutOfBounds s := fun h => hbounds h.2
      rw [if_neg hbounds, if_pos (not_le.mp hgiven)]
      by_cases hsame : s.retentionHours.toInt = stored.retention
      · have hnone : (some s.retentionHours.toInt).filter (fun h => decide (h ≠ stored.retention)) =
            none := by simp [Option.filter, hsame]
        dsimp only
        rw [hnone, hsame]
        dsimp only
        cases changed with
        | true => exact ⟨(fun _ h => nomatch h), fun _ => ⟨hnot, rfl, rfl, hstored⟩⟩
        | false => exact ⟨fun _ _ => ⟨rfl, .inr rfl⟩, (fun h => nomatch h)⟩
      · have hsome : (some s.retentionHours.toInt).filter (fun h => decide (h ≠ stored.retention)) =
            some s.retentionHours.toInt := by simp [Option.filter, hsame]
        dsimp only
        rw [hsome]
        dsimp only
        have hword : (Int32.ofInt s.retentionHours.toInt).toInt = s.retentionHours.toInt := by
          rw [not_or, not_lt, not_lt, minRetentionHours, maxRetentionHours] at hbounds
          have hsize : Int32.size = 2 ^ 32 := rfl
          rw [Int32.toInt_ofInt, hsize]
          exact Int.bmod_eq_of_le (by omega) (by omega)
        rw [Progress.call]
        cases service.refuse (retentionCall s.retentionHours.toInt stored.retention) with
        | some err =>
          exact ⟨fun _ h => (by cases h), (fun h => nomatch h)⟩
        | none =>
          refine ⟨(fun _ h => nomatch h), fun _ => ⟨hnot, ?_⟩⟩
          dsimp only
          rw [apply_retentionCall]
          exact ⟨rfl, rfl, hword⟩

/-! ### Clean edits -/

theorem right_of_failed {q : Progress} {err : Error} :
    UpdateRight (q, some (.failed err)) stored s :=
  ⟨fun _ h => (by cases h), nofun, nofun, nofun⟩

theorem right_of_unsent {q : Progress} {err : UpdateError} (h : q.calls = []) :
    UpdateRight (q, some err) stored s :=
  ⟨fun _ _ => h, nofun, nofun, nofun⟩

/-- **A clean edit is right**, whatever fails in it. -/
theorem right_of_clean (h : Clean stored s) (c : Conn) (service : Service) :
    UpdateRight (updateStream c service (.ok stored) s) stored s := by
  unfold updateStream updateDestination
  dsimp only [Except.toOption, Option.getD]
  split
  · exact right_of_failed
  split
  · exact right_of_unsent rfl
  rw [wantedMode_spec]
  rcases changeMode_cases service stored s with
    ⟨q, err, hq⟩ | ⟨q, hq, hmode, hopen, hretention, hcalls⟩
  · rw [hq]
    exact right_of_failed
  rw [hq]
  dsimp only
  have hshards : s.spec.partitions = s.shards := rfl
  rw [hshards]
  split
  · rename_i hresizes
    split
    · rename_i hdemand
      refine right_of_unsent (hcalls ?_)
      by_contra hswitch
      exact h.count hswitch hdemand hresizes
    · rename_i hdemand
      have hprovisioned : s.mode = .provisioned := by
        cases hm : s.mode with
        | provisioned => rfl
        | onDemand => exact absurd hm hdemand
      rw [changeShards]
      rcases callAndAwait_cases q service (.updateShardCount s.shards.toInt32) _ with
        ⟨q', err, hq'⟩ | ⟨haccepted, hq'⟩
      · rw [hq']
        exact right_of_failed
      rw [hq']
      dsimp only
      have hpositive : 1 ≤ s.shards.toInt32.toInt := by
        by_contra hlow
        exact service.positive _ (not_le.mp hlow) haccepted
      obtain ⟨hrefused, hdone⟩ := @changeRetention_spec service
        ⟨(Mutation.updateShardCount s.shards.toInt32).apply q.stream,
          q.calls ++ [.updateShardCount s.shards.toInt32]⟩ stored s true hretention
      refine ⟨fun refusal hr => ?_, fun hr => (hdone hr).2.1.trans hmode,
        fun hr => (hdone hr).2.2.2, fun hr _ _ => (hdone hr).2.2.1.trans ?_⟩
      · rcases (hrefused refusal hr).2 with hbounds | hchanged
        · exact absurd (h.resized hbounds hprovisioned hresizes) (not_lt.mpr hpositive)
        · cases hchanged
      · exact (h.fits (hdone hr).1 hprovisioned hresizes).resolve_right (not_lt.mpr hpositive)
  · rename_i hkept
    obtain ⟨hrefused, hdone⟩ := @changeRetention_spec service q stored s
      (decide (s.mode ≠ stored.mode)) hretention
    refine ⟨fun refusal hr => ?_, fun hr => (hdone hr).2.1.trans hmode,
      fun hr => (hdone hr).2.2.2, fun hr _ hpos => ?_⟩
    · rw [(hrefused refusal hr).1]
      refine hcalls ?_
      rcases (hrefused refusal hr).2 with hbounds | hchanged
      · exact h.kept hbounds hkept
      · simpa using hchanged
    · rw [(hdone hr).2.2.1, hopen]
      by_contra hne
      exact hkept ⟨hpos, Ne.symm hne⟩

/-! ### Edits that are not clean -/

/-- A service on which every call succeeds that can. -/
def willing : Service where
  refuse
    | .updateShardCount target =>
        if target.toInt < 1 then some (.external "InvalidArgumentException") else none
    | _ => none
  await _ := none
  positive target h := by simp [h]

/-- Where the mode is switched, the switch has been sent when the next check is made. -/
theorem changeMode_willing (h : s.mode ≠ stored.mode) :
    changeMode willing ⟨stored, []⟩ stored.mode s.mode =
      (⟨{ stored with streamModeDetails := some s.mode }, [.updateStreamMode s.mode]⟩, none) := by
  rw [changeMode, if_neg h]
  rfl

theorem changeShards_willing (p : Progress) (name : String) (stored : Stream) {shards : Int64}
    (h : 1 ≤ shards.toInt32.toInt) : changeShards willing p name stored shards =
      (⟨{ p.stream with openShardCount := some shards.toInt32 },
        p.calls ++ [.updateShardCount shards.toInt32]⟩, none) := by
  have haccepted : willing.refuse (.updateShardCount shards.toInt32) = none :=
    if_neg (not_lt.mpr h)
  rw [changeShards, Progress.callAndAwait, Progress.call, haccepted]
  rfl

theorem changeRetention_bad (p : Progress) (stored : Stream) (changed : Bool) (h : OutOfBounds s) :
    changeRetention willing p stored s.spec.attributes changed =
      (p, some (.refused (.outOfBounds s.retentionHours.toInt))) := by
  rw [changeRetention, retentionOf_spec, if_neg (not_le.mpr h.1), if_pos h.2]

/-- The retention stage leaves the shards alone. -/
theorem openShards_changeRetention (service : Service) (p : Progress) (stored : Stream)
    (attributes : Lib.Json.StringMap) (changed : Bool) :
    (changeRetention service p stored attributes changed).1.stream.openShards =
      p.stream.openShards := by
  rw [changeRetention]
  cases retentionOf attributes with
  | error refusal => rfl
  | ok hours =>
    dsimp only
    cases hours.filter (fun h => decide (h ≠ stored.retention)) with
    | none => cases changed <;> rfl
    | some hours =>
      dsimp only
      rw [Progress.call]
      cases service.refuse (retentionCall hours stored.retention) with
      | some err => rfl
      | none =>
        dsimp only
        rw [apply_retentionCall]
        rfl

/-- With the retention accepted, an edit of something else on a willing service succeeds. -/
theorem changeRetention_willing (p : Progress) (stored : Stream) (h : ¬OutOfBounds s) :
    (changeRetention willing p stored s.spec.attributes true).2 = none := by
  rw [changeRetention, retentionOf_spec]
  by_cases hgiven : s.retentionHours.toInt ≤ 0
  · rw [if_pos hgiven]
    rfl
  · have hbounds : ¬(s.retentionHours.toInt < minRetentionHours ∨
        maxRetentionHours < s.retentionHours.toInt) := fun hb => h ⟨not_le.mp hgiven, hb⟩
    rw [if_neg hgiven, if_neg hbounds]
    dsimp only
    cases (some s.retentionHours.toInt).filter (fun h => decide (h ≠ stored.retention)) with
    | none => rfl
    | some hours =>
      dsimp only
      rw [retentionCall]
      split <;> rfl

/-- What is sent to an open connection for a stream that is there. -/
theorem updateStream_eq (hopen : c.closed = false) (hname : trimSpace s.name ≠ "") :
    updateStream c service (.ok stored) s =
      match changeMode service ⟨stored, []⟩ stored.mode s.mode with
      | (p, some err) => (p, some (.failed err))
      | (p, none) =>
        if Resizes stored s.shards then
          if s.mode = .onDemand then (p, some (.refused .onDemandCount))
          else
            match changeShards service p (trimSpace s.name) stored s.shards with
            | (p, some err) => (p, some (.failed err))
            | (p, none) => changeRetention service p stored s.spec.attributes true
        else changeRetention service p stored s.spec.attributes (s.mode ≠ stored.mode) := by
  have htrimmed : trimSpace s.spec.name = trimSpace s.name := trimSpace_trimSpace s.name
  have hshards : s.spec.partitions = s.shards := rfl
  rw [updateStream, updateDestination]
  dsimp only [Except.toOption, Option.getD]
  rw [hopen, htrimmed, if_neg Bool.false_ne_true, if_neg hname, wantedMode_spec, hshards]
  all_goals rfl

/-- An edit that is right on a willing service is clean. -/
theorem clean_of_right (hopen : c.closed = false) (hname : trimSpace s.name ≠ "")
    (h : UpdateRight (updateStream c willing (.ok stored) s) stored s) : Clean stored s := by
  rw [updateStream_eq hopen hname] at h
  obtain ⟨p, hp, hcalls⟩ : ∃ p, changeMode willing ⟨stored, []⟩ stored.mode s.mode = (p, none) ∧
      (s.mode ≠ stored.mode → p.calls ≠ []) := by
    by_cases hswitch : s.mode = stored.mode
    · exact ⟨_, if_pos hswitch, fun hne => absurd hswitch hne⟩
    · exact ⟨_, changeMode_willing hswitch, fun _ => List.cons_ne_nil _ _⟩
  rw [hp] at h
  dsimp only at h
  refine ⟨fun hswitch hdemand hresizes => ?_, fun hbounds hkept => ?_,
    fun hbounds hprovisioned hresizes => ?_, fun hbounds hprovisioned hresizes => ?_⟩
  · rw [if_pos hresizes, if_pos hdemand] at h
    exact hcalls hswitch (h.refused _ rfl)
  · by_contra hswitch
    rw [if_neg hkept, changeRetention_bad _ _ _ hbounds] at h
    exact hcalls hswitch (h.refused _ rfl)
  · have hdemand : s.mode ≠ .onDemand := by rw [hprovisioned]; decide
    by_contra hpositive
    rw [if_pos hresizes, if_neg hdemand, changeShards_willing _ _ _ (not_lt.mp hpositive)] at h
    dsimp only at h
    rw [changeRetention_bad _ _ _ hbounds] at h
    have hnone := h.refused _ rfl
    exact List.append_ne_nil_of_right_ne_nil _ (List.cons_ne_nil _ _) hnone
  · have hdemand : s.mode ≠ .onDemand := by rw [hprovisioned]; decide
    by_contra hlost
    obtain ⟨hwrong, hpositive⟩ := not_or.mp hlost
    rw [if_pos hresizes, if_neg hdemand, changeShards_willing _ _ _ (not_lt.mp hpositive)] at h
    dsimp only at h
    obtain ⟨q, hq, hqopen⟩ : ∃ q : Progress, q =
        ⟨{ p.stream with openShardCount := some s.shards.toInt32 },
          p.calls ++ [.updateShardCount s.shards.toInt32]⟩ ∧
        q.stream.openShards = s.shards.toInt32.toInt := ⟨_, rfl, rfl⟩
    rw [← hq] at h
    have hdone := changeRetention_willing q stored hbounds
    have hkept := openShards_changeRetention willing q stored s.spec.attributes true
    have hasked := h.shards hdone hprovisioned hresizes.1
    rw [hkept, hqopen] at hasked
    exact hwrong hasked

/-! ### Every edit -/

/-- **Every edit is right exactly if it is clean**, is for a connection that is closed or names no
stream. -/
theorem update_right_iff (c : Conn) (stored : Stream) (s : StreamSpec) :
    (∀ service, UpdateRight (updateStream c service (.ok stored) s) stored s) ↔
      c.closed = true ∨ trimSpace s.name = "" ∨ Clean stored s := by
  constructor
  · intro h
    by_cases hclosed : c.closed = true
    · exact .inl hclosed
    · by_cases hname : trimSpace s.name = ""
      · exact .inr (.inl hname)
      · exact .inr (.inr (clean_of_right (Bool.eq_false_iff.mpr hclosed) hname (h willing)))
  · rintro (hclosed | hname | hclean) service
    · rw [updateStream, updateDestination, if_pos hclosed]
      exact right_of_failed
    · have htrimmed : trimSpace s.spec.name = "" := (trimSpace_trimSpace s.name).trans hname
      rw [updateStream, updateDestination]
      dsimp only
      rw [if_pos htrimmed]
      split
      · exact right_of_failed
      · exact right_of_unsent rfl
    · exact right_of_clean hclean c service

/-- Two shards, switched to on-demand with a count of four: the switch is sent, then the edit is
refused. -/
theorem refused_after_switch :
    let r := updateStream ⟨false, "eu-west-1"⟩ willing (.ok ⟨some .provisioned, some 2, some 24⟩)
      ⟨"orders", true, 4, 0⟩
    r.2 = some (.refused .onDemandCount) ∧ r.1.calls = [.updateStreamMode .onDemand] := by
  have hname : trimSpace (StreamSpec.mk "orders" true 4 0).name ≠ "" := by decide
  have hresizes : Resizes ⟨some .provisioned, some 2, some 24⟩
      (StreamSpec.mk "orders" true 4 0).shards := by decide
  have hdemand : (StreamSpec.mk "orders" true 4 0).mode = .onDemand := rfl
  have hswitch : (StreamSpec.mk "orders" true 4 0).mode ≠
      (Stream.mk (some .provisioned) (some 2) (some 24)).mode := by decide
  dsimp only
  rw [updateStream_eq rfl hname, changeMode_willing hswitch]
  dsimp only
  rw [if_pos hresizes, if_pos hdemand, hdemand]
  exact ⟨rfl, rfl⟩

end MqStudio.Kinesis
