import MqStudio.Configuration.Service

/-!
# Profiles that replace themselves

What becomes of stored profiles that are handed back to their own service, which is what an import
of an export and a rollback both come to.

* `prepared`: a stored profile after it has gone through a replacement.
* `prepareReplacement_stored`: a replacement by stored profiles, none of which is refused.
* `offline_preparedAll_iff`: it changes nothing exactly if every profile is `Kept`.
-/

namespace MqStudio.Configuration

open Model Lib.Maps Lib.Errors Connection

/-! ### One profile -/

/-- A profile that a replacement refuses. -/
def Refused (c : Connection.Service) (p : ConnectionProfile) : Prop :=
  ∃ err, c.validateConnectionFields p.kind p.name p.endpoints p.timeoutSec = .error err

/-- A profile that a replacement leaves as it is: the key pair or nothing at all authenticates it,
and its name and address are trimmed and pass their checks. -/
structure Kept (c : Connection.Service) (p : ConnectionProfile) : Prop where
  mechanism : p.auth.mechanism = authACL ∨ p.auth.mechanism = authNone
  fields : c.validateConnectionFields p.kind p.name p.endpoints p.timeoutSec =
    .ok (p.name, p.endpoints)

/-- A stored profile after it has gone through a replacement. -/
def prepared (p : ConnectionProfile) : ConnectionProfile :=
  { p with
    name := Lib.Text.trimSpace p.name
    endpoints := Lib.Text.trimSpace p.endpoints
    auth := ⟨if p.aclEnabled then authACL else authNone⟩
    status := statusOffline
    lastCheck := "-" }

/-- The checks let a profile through with its name and address trimmed. -/
theorem validateConnectionFields_cases (c : Connection.Service) (kind : MQKind)
    (name endpoints : String) (timeoutSec : Int64) :
    (∃ err, c.validateConnectionFields kind name endpoints timeoutSec = .error err) ∨
      c.validateConnectionFields kind name endpoints timeoutSec =
        .ok (Lib.Text.trimSpace name, Lib.Text.trimSpace endpoints) := by
  unfold Connection.Service.validateConnectionFields
  dsimp only
  split
  · exact Or.inl ⟨_, rfl⟩
  split
  · exact Or.inl ⟨_, rfl⟩
  split
  · exact Or.inl ⟨_, rfl⟩
  · exact Or.inr rfl

theorem not_refused_iff {c : Connection.Service} {p : ConnectionProfile} :
    ¬ Refused c p ↔ c.validateConnectionFields p.kind p.name p.endpoints p.timeoutSec =
      .ok (Lib.Text.trimSpace p.name, Lib.Text.trimSpace p.endpoints) := by
  constructor
  · intro h
    exact (validateConnectionFields_cases c p.kind p.name p.endpoints p.timeoutSec).resolve_left h
  · rintro h ⟨err, herr⟩
    rw [h] at herr
    cases herr

/-- What has passed the checks passes them again. -/
theorem not_refused_prepared {c : Connection.Service} {p : ConnectionProfile}
    (h : ¬ Refused c p) : ¬ Refused c (prepared p) := by
  rw [not_refused_iff] at h ⊢
  unfold Connection.Service.validateConnectionFields at h ⊢
  unfold prepared
  dsimp only at h ⊢
  rw [Lib.Text.trimSpace_trimSpace, Lib.Text.trimSpace_trimSpace]
  exact h

theorem prepareOne_settled (c : Connection.Service) {p : ConnectionProfile} (h : Settled p) :
    (Refused c p ∧ ∃ err, c.prepareOne p = .error err) ∨
      (¬ Refused c p ∧ c.prepareOne p = .ok (prepared p)) := by
  obtain ⟨acl, ha, he, hs⟩ := h.aclConfig_eq
  unfold Connection.Service.prepareOne
  rcases validateConnectionFields_cases c p.kind p.name p.endpoints p.timeoutSec with hv | hv
  · obtain ⟨err, herr⟩ := hv
    refine Or.inl ⟨⟨err, herr⟩, ?_⟩
    rw [herr]
    exact ⟨_, rfl⟩
  · refine Or.inr ⟨not_refused_iff.mpr hv, ?_⟩
    rw [hv]
    dsimp only
    rw [ha]
    dsimp only
    rw [setACL_eq]
    dsimp only
    rw [hs, h.group, he]
    rfl

theorem settled_prepared_of {c : Connection.Service} {p : ConnectionProfile} (h : Settled p)
    (hr : ¬ Refused c p) : Settled (prepared p) := by
  rcases prepareOne_settled c h with ⟨hn, -⟩ | ⟨-, hp⟩
  · exact absurd hn hr
  · exact settled_prepareOne hp

/-- The replacement leaves a profile as it is exactly if it is `Kept`. -/
theorem offlineProfile_prepared_iff {c : Connection.Service} {p : ConnectionProfile}
    (hr : ¬ Refused c p) : offlineProfile (prepared p) = offlineProfile p ↔ Kept c p := by
  have hv := not_refused_iff.mp hr
  constructor
  · intro h
    have hname : Lib.Text.trimSpace p.name = p.name := congrArg ConnectionProfile.name h
    have hend : Lib.Text.trimSpace p.endpoints = p.endpoints :=
      congrArg ConnectionProfile.endpoints h
    have hauth : (if p.aclEnabled then authACL else authNone) = p.auth.mechanism :=
      congrArg (·.auth.mechanism) h
    refine ⟨?_, by rw [hv, hname, hend]⟩
    split at hauth
    · exact Or.inl hauth.symm
    · exact Or.inr hauth.symm
  · intro h
    have hfields := h.fields
    rw [hv] at hfields
    obtain ⟨hname, hend⟩ := Prod.ext_iff.mp (Except.ok.inj hfields)
    have hauth : (⟨if p.aclEnabled then authACL else authNone⟩ : AuthConfig) = p.auth := by
      have hm : (if p.aclEnabled then authACL else authNone) = p.auth.mechanism := by
        rcases h.mechanism with hm | hm
        · rw [if_pos (by simp [ConnectionProfile.aclEnabled, hm]), hm]
        · rw [if_neg (by rw [ConnectionProfile.aclEnabled, hm]; decide), hm]
      rw [hm]
    unfold offlineProfile prepared
    dsimp only at hname hend ⊢
    rw [hname, hend, hauth]

/-! ### All profiles of a store -/

variable {m : Profiles} {n : Int}

/-- Every profile of a map, prepared. -/
def preparedAll (m : Profiles) : Profiles := m.map fun _ p => prepared p

theorem getElem?_preparedAll (m : Profiles) (k : Int) :
    (preparedAll m)[k]? = m[k]?.map prepared :=
  Std.ExtTreeMap.getElem?_map

theorem copyConnectionsSorted_preparedAll (m : Profiles) :
    copyConnectionsSorted (preparedAll m) = (copyConnectionsSorted m).map prepared := by
  have hlist : (preparedAll m).toList = m.toList.map fun e => (e.1, prepared e.2) :=
    Std.ExtTreeMap.toList_map
  rw [copyConnectionsSorted, hlist, copyConnectionsSorted, List.map_map, List.map_map]
  rfl

/-- The ids and the default flags are those of the map. -/
theorem storeInv_preparedAll (h : StoreInv m n) : StoreInv (preparedAll m) n := by
  refine StoreInv.of_sameLabels h fun k => ?_
  rw [getElem?_preparedAll]
  cases m[k]? <;> rfl

/-- A replacement by profiles none of which is refused prepares them all. -/
theorem mapM_prepareOne {c : Connection.Service} {ps : List ConnectionProfile}
    (hs : ∀ p ∈ ps, Settled p) (hr : ∀ p ∈ ps, ¬ Refused c p) :
    ps.mapM c.prepareOne = .ok (ps.map prepared) := by
  have h := Lib.Traverse.mapM_map_eq_ok c.prepareOne id prepared ps fun p hp =>
    (prepareOne_settled c (hs p hp)).elim (fun hn => absurd hn.1 (hr p hp)) And.right
  rwa [List.map_id] at h

/-- One profile that is refused refuses the replacement. -/
theorem mapM_prepareOne_error {c : Connection.Service} {ps : List ConnectionProfile}
    {p : ConnectionProfile} (hp : p ∈ ps) {err : Error} (herr : c.prepareOne p = .error err) :
    ∃ err, ps.mapM c.prepareOne = .error err := by
  induction ps with
  | nil => cases hp
  | cons q ps ih =>
    rw [List.mapM_cons]
    rcases List.mem_cons.mp hp with rfl | hp
    · rw [herr]
      exact ⟨err, rfl⟩
    · obtain ⟨other, hother⟩ := ih hp
      rw [hother]
      cases c.prepareOne q with
      | error first => exact ⟨first, rfl⟩
      | ok _ => exact ⟨other, rfl⟩

/-- The profiles of a store, as a service hands them out. -/
def stored (m : Profiles) : List (Option ConnectionProfile) := (copyConnectionsSorted m).map some

theorem filterMap_stored (m : Profiles) : (stored m).filterMap id = copyConnectionsSorted m := by
  simp [stored, List.filterMap_map]

theorem settled_preparedAll {c : Connection.Service} (hs : All Settled m)
    (hr : ∀ (k : Int) p, m[k]? = some p → ¬ Refused c p) : All Settled (preparedAll m) := by
  intro k q hq
  rw [getElem?_preparedAll] at hq
  obtain ⟨p, hp, rfl⟩ := Option.map_eq_some_iff.mp hq
  exact settled_prepared_of (hs k p hp) (hr k p hp)

/-- **A replacement by stored profiles**, none of which is refused. -/
theorem prepareReplacement_stored {c : Connection.Service} (h : StoreInv m n) (hs : All Settled m)
    (hr : ∀ (k : Int) p, m[k]? = some p → ¬ Refused c p) :
    c.prepareReplacement (stored m) = .ok (copyConnectionsSorted (offline (preparedAll m))) := by
  have hmap : (copyConnectionsSorted m).mapM c.prepareOne =
      .ok ((copyConnectionsSorted m).map prepared) := by
    refine mapM_prepareOne (fun p hp => ?_) fun p hp => ?_
    · obtain ⟨k, hk⟩ := copyConnectionsSorted_mem.mp hp
      exact hs k p hk
    · obtain ⟨k, hk⟩ := copyConnectionsSorted_mem.mp hp
      exact hr k p hk
  have hbuilt := buildConnectionState_copyConnectionsSorted (storeInv_preparedAll h)
    (settled_preparedAll hs hr)
  rw [copyConnectionsSorted_preparedAll] at hbuilt
  rw [Connection.Service.prepareReplacement, filterMap_stored, hmap]
  exact congrArg (fun b => Except.ok (copyConnectionsSorted b)) hbuilt

theorem prepareReplacement_refused {c : Connection.Service} (hs : All Settled m) {k : Int}
    {p : ConnectionProfile} (hp : m[k]? = some p) (hr : Refused c p) :
    ∃ err, c.prepareReplacement (stored m) = .error err := by
  rcases prepareOne_settled c (hs k p hp) with ⟨-, err, herr⟩ | ⟨hn, -⟩
  · obtain ⟨err, hmap⟩ := mapM_prepareOne_error (copyConnectionsSorted_mem.mpr ⟨k, hp⟩) herr
    refine ⟨err, ?_⟩
    rw [Connection.Service.prepareReplacement, filterMap_stored, hmap]
    rfl
  · exact absurd hr hn

theorem offlineProfile_offlineProfile (p : ConnectionProfile) :
    offlineProfile (offlineProfile p) = offlineProfile p := rfl

theorem storeInv_offline (h : StoreInv m n) : StoreInv (offline m) n := by
  refine StoreInv.of_sameLabels h fun k => ?_
  rw [getElem?_offline]
  cases m[k]? <;> rfl

/-- What a replacement by stored profiles leaves, where the file is written. -/
theorem replaceConnections_stored {c : Connection.Service} {env : Connection.Env}
    (h : StoreInv m n) (hs : All Settled m) (hr : ∀ (k : Int) p, m[k]? = some p → ¬ Refused c p)
    (hw : env.writeErr = none) :
    offline (c.replaceConnections env (stored m)).1.connections = offline (preparedAll m) := by
  have hsettled : All Settled (offline (preparedAll m)) :=
    lasting_settled.of_offline (settled_preparedAll hs hr) (offline_offline _)
  have hbuilt := buildConnectionState_copyConnectionsSorted
    (storeInv_offline (storeInv_preparedAll h)) hsettled
  rw [Connection.Service.replaceConnections, prepareReplacement_stored h hs hr]
  dsimp only
  rw [hw]
  refine (offline_restoreRuntimeLocked _ env _).trans ?_
  change offline (buildConnectionState _).1 = _
  rw [hbuilt, offline_offline, offline_offline]

/-- **It changes nothing** exactly if every profile is `Kept`. -/
theorem offline_preparedAll_iff {c : Connection.Service}
    (hr : ∀ (k : Int) p, m[k]? = some p → ¬ Refused c p) :
    offline (preparedAll m) = offline m ↔ ∀ (k : Int) p, m[k]? = some p → Kept c p := by
  constructor
  · intro h k p hp
    have hk := congrArg (·[k]?) h
    simp only [getElem?_offline, getElem?_preparedAll, hp, Option.map_some] at hk
    exact (offlineProfile_prepared_iff (hr k p hp)).mp (Option.some.inj hk)
  · intro h
    refine offline_ext fun k => ?_
    rw [getElem?_preparedAll]
    cases hp : m[k]? with
    | none => rfl
    | some p =>
      exact congrArg some ((offlineProfile_prepared_iff (hr k p hp)).mpr (h k p hp))

theorem Kept.not_refused {c : Connection.Service} {p : ConnectionProfile} (h : Kept c p) :
    ¬ Refused c p := by
  rintro ⟨err, herr⟩
  rw [h.fields] at herr
  cases herr

/-- Whether a profile is refused does not depend on its status. -/
theorem refused_congr {c d : Connection.Service} (hc : c.endpoints = d.endpoints)
    {p q : ConnectionProfile} (h : offlineProfile p = offlineProfile q) (hp : Refused c p) :
    Refused d q := by
  obtain ⟨err, herr⟩ := hp
  have hk := congrArg ConnectionProfile.kind h
  change p.kind = q.kind at hk
  have hn := congrArg ConnectionProfile.name h
  change p.name = q.name at hn
  have he := congrArg ConnectionProfile.endpoints h
  change p.endpoints = q.endpoints at he
  have ht := congrArg ConnectionProfile.timeoutSec h
  change p.timeoutSec = q.timeoutSec at ht
  refine ⟨err, ?_⟩
  rw [← herr, hk, hn, he, ht]
  unfold Connection.Service.validateConnectionFields Connection.Service.requiresEndpoints
  rw [hc]

end MqStudio.Configuration
