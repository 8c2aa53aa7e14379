import MqStudio.Connection.Rebuild

/-!
# The data file and the memory

Every call either leaves the data file and what does not depend on the runtime
alone, or ends with a file that was saved from the profiles it ends with
(`Written`); a call whose save fails has put the profiles back.

* `written_exec`: what any call but `Reload` does to file and memory.
* `agrees_run`: a fresh service that loads the file finds the profiles of the
  memory, after every run in which no blank family is put in by a replacement.
* `blank_kind_differs`: a replacement keeps a blank family in memory, and a load
  reads it as RocketMQ.
-/

namespace MqStudio.Connection

open Model Lib.Maps Lib.Errors

/-! ### What a call writes -/

/-- File and memory are as they were, or the file was saved from the memory. -/
def Written (env : Env) (s t : Service) : Prop :=
  (t.file = s.file ∧ offline t.connections = offline s.connections) ∨
  ∃ m, t.file = some (encodeConnectionsForDisk env (copyConnectionsSorted m)) ∧
    offline m = offline t.connections

theorem Written.refl (env : Env) (s : Service) : Written env s s := Or.inl ⟨rfl, rfl⟩

theorem Written.trans {env : Env} {s t u : Service} (h : Written env s t) (h' : Written env t u) :
    Written env s u := by
  rcases h' with ⟨hf, ho⟩ | h'
  · rcases h with ⟨hf', ho'⟩ | ⟨m, hm, ho'⟩
    · exact Or.inl ⟨hf.trans hf', ho.trans ho'⟩
    · exact Or.inr ⟨m, hf.trans hm, ho'.trans ho.symm⟩
  · exact Or.inr h'

/-- A save of profiles that differ in their status alone. -/
theorem written_saveConnectionsLocked {s t : Service} (env : Env) (e : Option Error)
    (hf : t.file = s.file) (ho : offline t.connections = offline s.connections) :
    Written env s (t.saveConnectionsLocked env e).1 := by
  cases e with
  | none => exact Or.inr ⟨t.connections, rfl, rfl⟩
  | some err => exact Or.inl ⟨hf, ho⟩

theorem written_connectRuntimeLocked (s : Service) (env : Env) (id : Int) :
    Written env s (s.connectRuntimeLocked env id).1 := by
  unfold Service.connectRuntimeLocked
  cases hp : s.connections[id]? with
  | none => exact .refl env s
  | some p =>
    cases env.dialErr with
    | some err => exact .refl env s
    | none =>
      dsimp only
      have h := written_saveConnectionsLocked (s := s) (t := { s with
        clients := s.clients.insert (resolveForDial env.settings p).id (resolveForDial env.settings p)
        connections := s.connections.insert id
          { p with status := statusOnline, lastCheck := env.now } }) env env.statusWriteErr rfl
        (offline_insert hp rfl)
      generalize Service.saveConnectionsLocked _ env env.statusWriteErr = r at h
      obtain ⟨t, e⟩ := r
      cases e <;> exact h

theorem written_disconnect (s : Service) (env : Env) (id : Int) :
    Written env s (s.disconnect env id).1 := by
  unfold Service.disconnect
  cases hp : s.connections[id]? with
  | none => exact .refl env s
  | some p => exact written_saveConnectionsLocked env env.writeErr rfl (offline_insert hp rfl)

theorem written_testConnection (s : Service) (env : Env) (id : Int) :
    Written env s (s.testConnection env id).1 := by
  unfold Service.testConnection
  cases hp : s.connections[id]? with
  | none => exact .refl env s
  | some p =>
    have ho := offline_insert (m := s.connections) (q := { p with lastCheck := env.now }) hp rfl
    cases env.dialErr <;> exact Or.inl ⟨rfl, ho⟩

theorem written_restoreRuntimeLocked (s : Service) (env : Env) (plan : Bool) :
    Written env s (s.restoreRuntimeLocked env plan).1 := by
  unfold Service.restoreRuntimeLocked
  dsimp only
  split
  · have h := written_connectRuntimeLocked { s with clients := ∅ } env (defaultID s.connections)
    generalize Service.connectRuntimeLocked { s with clients := ∅ } env
      (defaultID s.connections) = r at h
    obtain ⟨t, e⟩ := r
    cases e <;> exact h
  · exact .refl env s

theorem settled_prepared {s : Service} {ps : List (Option ConnectionProfile)}
    {prepared : List ConnectionProfile} (h : s.prepareReplacement ps = .ok prepared) :
    ∃ qs : List ConnectionProfile, (∀ q ∈ qs, Settled q ∧
        ∃ p ∈ ps.filterMap id, s.prepareOne p = .ok q) ∧
      prepared = copyConnectionsSorted (buildConnectionState (qs.map some)).1 := by
  unfold Service.prepareReplacement at h
  cases hq : (ps.filterMap id).mapM s.prepareOne with
  | error err =>
    rw [hq] at h
    cases h
  | ok qs =>
    rw [hq] at h
    refine ⟨qs, fun q hm => ?_, (Except.ok.inj h).symm⟩
    obtain ⟨p, hp, he⟩ := Lib.Traverse.exists_of_mem_mapM hq hm
    exact ⟨settled_prepareOne he, p, hp, he⟩

/-- A profile that is built is a loaded one, but for its id and default flag. -/
theorem mem_built {ps : List ConnectionProfile} {k : Int} {q : ConnectionProfile}
    (h : (buildConnectionState (ps.map some)).1[k]? = some q) :
    ∃ p ∈ ps, ∃ (id : Int) (d : Bool), q = { normalizeLoaded p with id := id, isDefault := d } := by
  have hfold : ∀ (qs : List ConnectionProfile) (b : Building), qs ⊆ ps →
      (∀ (k : Int) q, b.loaded[k]? = some q → ∃ p ∈ ps, ∃ (id : Int) (d : Bool),
        q = { normalizeLoaded p with id := id, isDefault := d }) →
      ∀ (k : Int) q, (qs.foldl Building.add b).loaded[k]? = some q → ∃ p ∈ ps, ∃ (id : Int) (d : Bool),
        q = { normalizeLoaded p with id := id, isDefault := d } := by
    intro qs
    induction qs with
    | nil => exact fun b _ hb => hb
    | cons p qs ih =>
      intro b hsub hb
      refine ih (b.add p) (fun q hq => hsub (by simp [hq])) fun k q hq => ?_
      change (b.loaded.insert (b.assignID p.id).1 _)[k]? = some q at hq
      rw [getElem?_insert] at hq
      split at hq
      · exact ⟨p, hsub List.mem_cons_self, _, _, (Option.some.inj hq).symm⟩
      · exact hb k q hq
  have hbuilt := hfold ps ⟨∅, 1, false⟩ (fun _ => id) (by simp)
  have hfilter : (ps.map some).filterMap id = ps := by simp [List.filterMap_map]
  rw [buildConnectionState, hfilter] at h
  dsimp only at h
  split at h
  · exact hbuilt k q h
  · split at h
    · rename_i id _ _
      rw [setDefaultFlag, getElem?_modify] at h
      split at h
      · obtain ⟨r, hr, rfl⟩ := Option.map_eq_some_iff.mp h
        obtain ⟨p, hp, i, d, rfl⟩ := hbuilt k r hr
        exact ⟨p, hp, i, true, rfl⟩
      · exact hbuilt k q h
    · exact hbuilt k q h

theorem settled_built (ps : List ConnectionProfile)
    (h : ∀ p ∈ ps, p.auth.mechanism ≠ ⟨""⟩) (k : Int) (q : ConnectionProfile)
    (hq : (buildConnectionState (ps.map some)).1[k]? = some q) : Settled q := by
  obtain ⟨p, hp, id, d, rfl⟩ := mem_built hq
  exact (settled_normalizeLoaded (h p hp)).congr rfl rfl rfl

theorem written_replaceConnections (s : Service) (env : Env)
    (ps : List (Option ConnectionProfile)) : Written env s (s.replaceConnections env ps).1 := by
  unfold Service.replaceConnections
  cases hp : s.prepareReplacement ps with
  | error err => exact .refl env s
  | ok prepared =>
    dsimp only
    cases env.writeErr with
    | some err => exact .refl env s
    | none =>
      obtain ⟨qs, hqs, rfl⟩ := settled_prepared hp
      refine Written.trans (Or.inr ⟨(buildConnectionState (qs.map some)).1, rfl, ?_⟩)
        (written_restoreRuntimeLocked _ env _)
      -- What was prepared is built into itself, off line.
      have hrebuilt := buildConnectionState_copyConnectionsSorted
        (storeInv_buildConnectionState (qs.map some))
        (settled_built qs fun q hq => (hqs q hq).1.mechanism)
      change _ = offline (buildConnectionState _).1
      rw [hrebuilt, offline_offline]

theorem written_storeEdited (s : Service) (env : Env) {id : Int} {previous : ConnectionProfile}
    (current : ConnectionProfile) (redial : Bool) (hp : s.connections[id]? = some previous) :
    Written env s (s.storeEdited env id previous current redial).1 := by
  unfold Service.storeEdited
  dsimp only
  cases hw : env.writeErr with
  | some err =>
    refine Or.inl ⟨rfl, ?_⟩
    change offline ((s.connections.insert id current).insert id previous) = _
    rw [insert_insert_self current hp]
  | none =>
    have hsaved : Written env s
        ({ s with connections := s.connections.insert id current }.saveConnectionsLocked env none).1 :=
      Or.inr ⟨_, rfl, rfl⟩
    cases redial with
    | false => exact hsaved
    | true =>
      refine hsaved.trans ?_
      have h := written_connectRuntimeLocked { s with
        connections := s.connections.insert id current
        file := some (encodeConnectionsForDisk env
          (copyConnectionsSorted (s.connections.insert id current)))
        clients := s.clients.erase id } env id
      simp only [Service.saveConnectionsLocked, Service.writeFile, if_true]
      generalize Service.connectRuntimeLocked _ env id = r at h ⊢
      obtain ⟨u, e⟩ := r
      cases e <;> exact h

theorem written_updateConnection (s : Service) (env : Env) (id : Int) (input : ConnectionProfile) :
    Written env s (s.updateConnection env id input).1 := by
  rcases updateConnection_cases s env id input with hc | ⟨p, q, hp, -, hc⟩ <;> rw [hc]
  · exact .refl env s
  · exact written_storeEdited s env _ _ hp

theorem written_setOption (s : Service) (env : Env) (id : Int) (key value : String) :
    Written env s (s.setOption env id key value).1 := by
  rcases setOption_cases s env id key value with hc | ⟨p, options, hp, hc⟩ <;> rw [hc]
  · exact .refl env s
  · exact written_storeEdited s env _ _ hp

theorem written_addConnection {s : Service} (hi : s.core.Inv) (env : Env)
    (input : ConnectionProfile) : Written env s (s.addConnection env input).1 := by
  have hfree : s.connections[s.nextID]? = none := hi.toIdInv.free le_rfl
  unfold Service.addConnection
  dsimp only
  split
  · exact .refl env s
  split
  · exact .refl env s
  · rename_i name endpoints _ _ acl _
    generalize hp : applyCredentials _ input acl = p
    have hid : p.id = s.nextID := by rw [← hp, applyCredentials_id]
    cases env.writeErr with
    | some err =>
      refine Or.inl ⟨rfl, ?_⟩
      change offline ((s.connections.insert p.id p).erase p.id) = _
      rw [hid, erase_insert_self p hfree]
    | none => exact Or.inr ⟨_, rfl, rfl⟩

theorem written_deleteConnection (s : Service) (env : Env) (id : Int) :
    Written env s (s.deleteConnection env id).1 := by
  unfold Service.deleteConnection
  cases hp : s.connections[id]? with
  | none => exact .refl env s
  | some p =>
    dsimp only
    split
    · exact .refl env s
    · rename_i hcond
      simp only [newDefaultID_eq_zero hp hcond, ne_eq, not_true_eq_false, if_false]
      cases env.writeErr with
      | some err =>
        refine Or.inl ⟨rfl, ?_⟩
        change offline ((s.connections.erase id).insert id p) = _
        rw [insert_erase_self hp]
      | none =>
        have hsaved : Written env s
            ({ s with connections := s.connections.erase id }.saveConnectionsLocked env none).1 :=
          Or.inr ⟨_, rfl, rfl⟩
        dsimp only [Service.saveConnectionsLocked, Service.writeFile] at hsaved ⊢
        split <;> exact hsaved

theorem written_setDefaultConnection {s : Service} (hi : s.core.Inv) (env : Env) (id : Int) :
    Written env s (s.setDefaultConnection env id).1 := by
  unfold Service.setDefaultConnection
  cases hp : s.connections[id]? with
  | none => exact .refl env s
  | some p =>
    dsimp only
    split
    · exact .refl env s
    · cases env.writeErr with
      | none => exact Or.inr ⟨_, rfl, rfl⟩
      | some err =>
        refine Or.inl ⟨rfl, ?_⟩
        change offline (restoredDefaults s.connections id) = _
        rw [restoredDefaults_eq (m := s.connections) hi hp]

/-- **What a call does to file and memory**, but for a reload. -/
theorem written_exec {s : Service} (hi : s.core.Inv) {c : Call} (hc : c.op ≠ .reload) :
    Written c.env s (exec s c) := by
  obtain ⟨op, env⟩ := c
  cases op with
  | addConnection input => exact written_addConnection hi env input
  | updateConnection id input => exact written_updateConnection s env id input
  | setOption id key value => exact written_setOption s env id key value
  | deleteConnection id => exact written_deleteConnection s env id
  | setDefaultConnection id => exact written_setDefaultConnection hi env id
  | connect id => exact written_connectRuntimeLocked s env id
  | disconnect id => exact written_disconnect s env id
  | testConnection id => exact written_testConnection s env id
  | replaceConnections ps => exact written_replaceConnections s env ps
  | reload => exact absurd rfl hc

/-! ### Reloading -/

theorem offline_connectRuntimeLocked (s : Service) (env : Env) (id : Int) :
    offline (s.connectRuntimeLocked env id).1.connections = offline s.connections := by
  rcases connectRuntimeLocked_cases s env id with ⟨hc, -⟩ | ⟨p, hp, -, hc⟩
  · rw [Service.connections_of_core hc]
  · exact (congrArg offline (congrArg Core.connections hc)).trans (offline_insert hp rfl)

theorem offline_restoreRuntimeLocked (s : Service) (env : Env) (plan : Bool) :
    offline (s.restoreRuntimeLocked env plan).1.connections = offline s.connections := by
  rcases restoreRuntimeLocked_cases s env plan with hc | ⟨p, hp, -, hc⟩
  · exact congrArg offline (congrArg Core.connections hc)
  · exact (congrArg offline (congrArg Core.connections hc)).trans (offline_insert hp rfl)

/-- A reload leaves file and memory alone, or ends with what a load finds, off line or not. -/
theorem reload_loaded (s : Service) (env : Env) :
    (s.reload env).1 = s ∨ ∃ t, s.loadConnectionsFromFile env = .ok t ∧
      offline (s.reload env).1.connections = offline t.connections ∧
      Written env t (s.reload env).1 := by
  unfold Service.reload
  cases hl : s.loadConnectionsFromFile env with
  | error err => exact Or.inl rfl
  | ok t =>
    refine Or.inr ⟨t, rfl, ?_, ?_⟩
    · exact offline_restoreRuntimeLocked { t with reconnectReload := s.reloadPlanLocked } env _
    · exact written_restoreRuntimeLocked { t with reconnectReload := s.reloadPlanLocked } env _

/-- What no step changes, all of them leave. -/
theorem kept_of_foldlM {step : ConnectionProfile → String × String → Except Error ConnectionProfile}
    (hstep : ∀ p e q, step p e = .ok q → q.kind = p.kind ∧ q.auth = p.auth)
    (es : List (String × String)) : ∀ {p q : ConnectionProfile},
    es.foldlM step p = .ok q → q.kind = p.kind ∧ q.auth = p.auth := by
  induction es with
  | nil =>
    intro p q h
    obtain rfl := Except.ok.inj h
    exact ⟨rfl, rfl⟩
  | cons e es ih =>
    intro p q h
    rw [List.foldlM_cons] at h
    cases hs : step p e with
    | error err =>
      rw [hs] at h
      cases h
    | ok r =>
      rw [hs] at h
      obtain ⟨hkind, hauth⟩ := hstep p e r hs
      obtain ⟨hkind', hauth'⟩ := ih h
      exact ⟨hkind'.trans hkind, hauth'.trans hauth⟩

theorem decryptSecrets_kept {env : Env} {p q : ConnectionProfile}
    (h : decryptSecrets env p = .ok q) : q.kind = p.kind ∧ q.auth = p.auth := by
  refine kept_of_foldlM (fun p e q h => ?_) _ h
  split at h
  · obtain rfl := Except.ok.inj h
    exact ⟨rfl, rfl⟩
  · split at h
    · obtain rfl := Except.ok.inj h
      exact ⟨rfl, rfl⟩
    · cases h

theorem profile_named (r : ConnectionRecord) :
    r.profile.kind ≠ ⟨""⟩ ∧ r.profile.auth.mechanism ≠ ⟨""⟩ := by
  obtain ⟨⟨id, name, group, ⟨kind⟩, endpoints, timeoutSec, ⟨⟨mechanism⟩⟩, status, lastCheck,
    isDefault, remark, options, old⟩, secrets, nameServer, enableACL, accessKey, secretKey⟩ := r
  unfold ConnectionRecord.profile
  dsimp only
  by_cases hk : kind = "" <;> by_cases he : endpoints = "" <;> by_cases hm : mechanism = "" <;>
    cases enableACL <;> by_cases hs : secrets.isEmpty = true <;>
    simp [hk, he, hm, hs, kindRocketMQ, authACL, authNone, ConnectionProfile.setSecret]

/-- What a load of a file builds is named: no family and no mechanism is blank. -/
theorem loadConnectionsFromFile_built {s t : Service} {env : Env}
    (h : s.loadConnectionsFromFile env = .ok t) :
    (s.file = none ∧ t = s) ∨ ∃ (data : String) (ps : List ConnectionProfile),
      s.file = some data ∧ t.file = s.file ∧
      t.connections = (buildConnectionState (ps.map some)).1 ∧
      ∀ p ∈ ps, p.kind ≠ ⟨""⟩ ∧ p.auth.mechanism ≠ ⟨""⟩ := by
  unfold Service.loadConnectionsFromFile at h
  split at h
  · cases h
  · rename_i hf
    exact Or.inl ⟨hf, (Except.ok.inj h).symm⟩
  · rename_i data hr hf
    simp only [bind, Except.bind] at h
    split at h
    · cases h
    split at h
    · cases h
    · rename_i persisted _ ps hps
      obtain rfl := Except.ok.inj h
      refine Or.inr ⟨data, ps, hf, rfl, rfl, fun p hp => ?_⟩
      obtain ⟨r, -, hr⟩ := Lib.Traverse.exists_of_mem_mapM hps hp
      obtain ⟨hk, ha⟩ := decryptSecrets_kept hr
      rw [hk, ha]
      exact profile_named r

/-! ### What every stored profile is -/

/-- A property of stored profiles that no call but a replacement takes away. -/
structure Lasting (Q : ConnectionProfile → Prop) : Prop where
  status : ∀ p q, offlineProfile p = offlineProfile q → Q p → Q q
  flag : ∀ p d, Q p → Q { p with isDefault := d }
  options : ∀ p o, Q p → Q { p with options := o }
  added : ∀ (s : Service) input p, s.added input = some p → Q p
  edited : ∀ (s : Service) id input p q, s.connections[id]? = some p → Q p →
    s.edited id input = some q → Q q
  loaded : ∀ p id d, p.kind ≠ ⟨""⟩ → p.auth.mechanism ≠ ⟨""⟩ →
    Q { normalizeLoaded p with id := id, isDefault := d }

variable {Q : ConnectionProfile → Prop}

/-- Every stored profile has a property. -/
def All (Q : ConnectionProfile → Prop) (m : Profiles) : Prop := ∀ (k : Int) p, m[k]? = some p → Q p

theorem All.of_core {s : Service} {c : Core} (h : s.core = c) (hc : All Q c.connections) :
    All Q s.connections := by
  subst h
  exact hc

theorem All.insert {m : Profiles} (h : All Q m) {id : Int} {p : ConnectionProfile} (hp : Q p) :
    All Q (m.insert id p) := by
  intro k q hq
  rw [getElem?_insert] at hq
  split at hq
  · exact Option.some.inj hq ▸ hp
  · exact h k q hq

theorem All.erase {m : Profiles} (h : All Q m) (id : Int) : All Q (m.erase id) := by
  intro k q hq
  rw [getElem?_erase] at hq
  split at hq
  · cases hq
  · exact h k q hq

theorem Lasting.of_offline (hQ : Lasting Q) {m m' : Profiles} (h : All Q m)
    (ho : offline m' = offline m) : All Q m' :=
  forall_of_offline hQ.status ho.symm h

theorem Lasting.storeEdited (hQ : Lasting Q) {s : Service} (h : All Q s.connections) (env : Env)
    {id : Int} {previous current : ConnectionProfile} (redial : Bool)
    (hp : s.connections[id]? = some previous) (hc : Q current) :
    All Q (s.storeEdited env id previous current redial).1.connections := by
  have hstored : All Q (s.connections.insert id current) := h.insert hc
  rcases storeEdited_cases env current redial hp with ⟨-, he⟩ | ⟨-, -, he⟩ | ⟨-, he⟩ | ⟨-, he⟩
  · rwa [Service.connections_of_core he]
  · exact All.of_core he hstored
  · exact All.of_core he hstored
  · have hon : Q { current with status := statusOnline, lastCheck := env.now } :=
      hQ.status current _ rfl hc
    exact All.of_core he (hstored.insert hon)

/-- **Every call keeps a lasting property** of the stored profiles; a replacement brings its own. -/
theorem Lasting.exec (hQ : Lasting Q) {s : Service} (hi : s.core.Inv) (h : All Q s.connections)
    {c : Call} (hreplace : ∀ ps prepared, c.op = .replaceConnections ps →
      s.prepareReplacement ps = .ok prepared → c.env.writeErr = none →
      All Q (buildConnectionState (prepared.map some)).1) : All Q (exec s c).connections := by
  obtain ⟨op, env⟩ := c
  cases op with
  | addConnection input =>
    have hfree : s.connections[s.nextID]? = none := hi.toIdInv.free le_rfl
    rcases addConnection_cases env input hfree with hc | ⟨p, hp, hc⟩
    · exact All.of_core hc h
    · exact All.of_core hc (h.insert (hQ.added s input p hp))
  | updateConnection id input =>
    change All Q (s.updateConnection env id input).1.connections
    rcases updateConnection_cases s env id input with hc | ⟨p, q, hp, hq, hc⟩ <;> rw [hc]
    · exact h
    · have hedit := hQ.edited s id input p q hp (h id p hp) hq
      refine hQ.storeEdited h env _ hp ?_
      split
      · exact hQ.status q _ rfl hedit
      · exact hedit
  | setOption id key value =>
    change All Q (s.setOption env id key value).1.connections
    rcases setOption_cases s env id key value with hc | ⟨p, options, hp, hc⟩ <;> rw [hc]
    · exact h
    · refine hQ.storeEdited h env _ hp (hQ.status { p with options := some options } _ rfl ?_)
      exact hQ.options p _ (h id p hp)
  | deleteConnection id =>
    rcases deleteConnection_cases s env id with hc | ⟨p, -, -, hc⟩
    · exact All.of_core hc h
    · exact All.of_core hc (h.erase id)
  | setDefaultConnection id =>
    rcases setDefaultConnection_cases s env id with hc | ⟨p, hp, -, hc | hc⟩
    · exact All.of_core hc h
    · refine All.of_core hc fun k q hq => ?_
      change (setDefaultFlag (clearDefaults s.connections) id true)[k]? = some q at hq
      rw [setDefaultFlag, getElem?_modify, getElem?_clearDefaults] at hq
      have hclear : ∀ r, s.connections[k]?.map (fun p => { p with isDefault := false }) = some r →
          Q r := by
        intro r hr
        obtain ⟨r', hr', rfl⟩ := Option.map_eq_some_iff.mp hr
        exact hQ.flag r' false (h k r' hr')
      split at hq
      · obtain ⟨r, hr, rfl⟩ := Option.map_eq_some_iff.mp hq
        exact hQ.flag r true (hclear r hr)
      · exact hclear q hq
    · refine All.of_core hc ?_
      change All Q (restoredDefaults s.connections id)
      rw [restoredDefaults_eq (m := s.connections) hi hp]
      exact h
  | connect id => exact hQ.of_offline h (offline_connectRuntimeLocked s env id)
  | disconnect id =>
    rcases disconnect_cases s env id with hc | ⟨p, hp, hc⟩
    · exact All.of_core hc h
    · exact hQ.of_offline h
        ((congrArg offline (congrArg Core.connections hc)).trans (offline_insert hp rfl))
  | testConnection id =>
    rcases testConnection_cases s env id with hc | ⟨p, hp, hc⟩
    · exact All.of_core hc h
    · exact hQ.of_offline h
        ((congrArg offline (congrArg Core.connections hc)).trans (offline_insert hp rfl))
  | replaceConnections ps =>
    change All Q (s.replaceConnections env ps).1.connections
    rcases replaceConnections_cases s env ps with hc | ⟨t, plan, prepared, hp, ht, hc⟩
    · exact All.of_core hc h
    · cases hw : env.writeErr with
      | some err => rwa [Service.replaceConnections, hp, hw]
      | none =>
        rw [hc]
        refine hQ.of_offline (m := t.connections) ?_ (offline_restoreRuntimeLocked t env plan)
        exact All.of_core ht (hreplace ps prepared rfl hp hw)
  | reload =>
    change All Q (s.reload env).1.connections
    rcases reload_loaded s env with hc | ⟨t, ht, ho, -⟩
    · rwa [hc]
    · refine hQ.of_offline ?_ ho
      rcases loadConnectionsFromFile_built ht with ⟨-, rfl⟩ | ⟨data, ps, -, -, hb, hps⟩
      · exact h
      · intro k q hq
        rw [hb] at hq
        obtain ⟨p, hp, id, d, rfl⟩ := mem_built hq
        exact hQ.loaded p id d (hps p hp).1 (hps p hp).2

theorem lasting_settled : Lasting Settled where
  status p q he h := by
    have hg := congrArg ConnectionProfile.group he
    have ha := congrArg ConnectionProfile.auth he
    have hs := congrArg ConnectionProfile.secrets he
    exact h.congr hg.symm ha.symm hs.symm
  flag p d h := h.congr rfl rfl rfl
  options p o h := h.congr rfl rfl rfl
  added _ _ _ h := settled_added h
  edited _ _ _ _ _ hp _ hq := settled_edited hp hq
  loaded _ _ _ _ hm := (settled_normalizeLoaded hm).congr rfl rfl rfl

/-- The family of a profile is named. -/
def Named (p : ConnectionProfile) : Prop := p.kind ≠ ⟨""⟩

@[simp] theorem applyCredentials_kind (connection input : ConnectionProfile) (acl : ACL) :
    (applyCredentials connection input acl).kind = connection.kind := by
  unfold applyCredentials
  dsimp only
  rw [setACL_eq]
  split <;> rfl

theorem normalizeLoaded_kind (p : ConnectionProfile) : (normalizeLoaded p).kind = p.kind := by
  rw [normalizeLoaded_eq]

theorem lasting_named : Lasting Named where
  status p q he h := by
    have hk := congrArg ConnectionProfile.kind he
    exact fun hq => h (hk.trans hq)
  flag _ _ h := h
  options _ _ h := h
  added s input p h := by
    unfold Service.added at h
    split at h
    · obtain rfl := Option.some.inj h
      rw [Named, applyCredentials_kind]
      change newKind input.kind ≠ ⟨""⟩
      unfold newKind
      split
      · decide
      · assumption
    · cases h
  edited s id input p q hp hn hq := by
    obtain ⟨name, endpoints, acl, -, -, rfl⟩ := edited_eq hp hq
    unfold Named editProfile
    dsimp only
    rw [applyCredentials_kind]
    change (if input.kind ≠ ⟨""⟩ then input.kind else p.kind) ≠ ⟨""⟩
    split
    · assumption
    · exact hn
  loaded p id d hk _ := by
    change (normalizeLoaded p).kind ≠ ⟨""⟩
    rw [normalizeLoaded_kind]
    exact hk

/-- What a replacement stores is settled. -/
theorem settled_replacement {s : Service} {ps : List (Option ConnectionProfile)}
    {prepared : List ConnectionProfile} (h : s.prepareReplacement ps = .ok prepared) :
    All Settled (buildConnectionState (prepared.map some)).1 := by
  obtain ⟨qs, hqs, rfl⟩ := settled_prepared h
  refine settled_built _ fun p hp => ?_
  obtain ⟨k, hk⟩ := copyConnectionsSorted_mem.mp hp
  exact (settled_built qs (fun q hq => (hqs q hq).1.mechanism) k p hk).mechanism

theorem prepareOne_kind {s : Service} {p q : ConnectionProfile} (h : s.prepareOne p = .ok q) :
    q.kind = p.kind := by
  unfold Service.prepareOne at h
  split at h
  · cases h
  split at h
  · cases h
  · obtain rfl := Except.ok.inj h
    change (ConnectionProfile.setACL _ _ _ _).kind = _
    rw [setACL_eq]

/-- What a replacement stores is of the families it was given. -/
theorem named_replacement {s : Service} {ps : List (Option ConnectionProfile)}
    {prepared : List ConnectionProfile} (h : s.prepareReplacement ps = .ok prepared)
    (hn : ∀ p, some p ∈ ps → Named p) :
    All Named (buildConnectionState (prepared.map some)).1 := by
  obtain ⟨qs, hqs, rfl⟩ := settled_prepared h
  have hbuilt : ∀ (rs : List ConnectionProfile), (∀ r ∈ rs, Named r) →
      All Named (buildConnectionState (rs.map some)).1 := by
    intro rs hr k q hq
    obtain ⟨p, hp, id, d, rfl⟩ := mem_built hq
    change (normalizeLoaded p).kind ≠ ⟨""⟩
    rw [normalizeLoaded_kind]
    exact hr p hp
  refine hbuilt _ fun p hp => ?_
  obtain ⟨k, hk⟩ := copyConnectionsSorted_mem.mp hp
  refine hbuilt qs (fun q hq => ?_) k p hk
  obtain ⟨-, p', hp', he⟩ := hqs q hq
  rw [Named, prepareOne_kind he]
  refine hn p' ?_
  obtain ⟨o, ho, ho'⟩ := List.mem_filterMap.mp hp'
  rwa [show o = some p' from ho'] at ho

theorem settled_exec {s : Service} (hi : s.core.Inv) (h : All Settled s.connections) (c : Call) :
    All Settled (exec s c).connections :=
  lasting_settled.exec hi h fun _ _ _ hp _ => settled_replacement hp

/-! ### File and memory agree -/

/-- A service on a data file that it has not loaded yet. -/
def fresh (endpoints : Option (MQKind → Bool)) (file : Option String) : Service :=
  ⟨∅, 1, false, endpoints, file, ∅⟩

/-- A fresh service loads the file, and finds the profiles of the memory. -/
def Agrees (open_ : String → String → Except Error String) (s : Service) : Prop :=
  ∀ (endpoints : Option (MQKind → Bool)) (env : Env), env.openValue = open_ → env.readErr = none →
    ∃ t, (fresh endpoints s.file).loadConnectionsFromFile env = .ok t ∧
      offline t.connections = offline s.connections

/-- A load reads the file and the key alone. -/
theorem loadConnectionsFromFile_congr {s t : Service} {env env' : Env} (s' : Service)
    (h : s.loadConnectionsFromFile env = .ok t) (hk : env'.openValue = env.openValue)
    (hr : env'.readErr = none) (hf : s'.file = s.file) (hfile : s.file ≠ none) :
    ∃ t', s'.loadConnectionsFromFile env' = .ok t' ∧ t'.connections = t.connections := by
  have hdec : decryptSecrets env' = decryptSecrets env := by
    funext p
    unfold decryptSecrets decrypt
    rw [hk]
  unfold Service.loadConnectionsFromFile at h ⊢
  split at h
  · cases h
  · rename_i hn
    exact absurd hn hfile
  · rename_i data _ hd
    rw [hr, hf, hd, hdec]
    simp only [bind, Except.bind] at h ⊢
    split at h
    · cases h
    split at h
    · cases h
    · obtain rfl := Except.ok.inj h
      exact ⟨_, rfl, rfl⟩

/-- A call under the key of the run, after which the ids are in range, and which replaces nothing
by a profile of a blank family. -/
structure Portable (open_ : String → String → Except Error String) (s : Service) (c : Call) :
    Prop where
  keyed : Keyed open_ c.env
  inRange : InRange (exec s c).connections
  named : ∀ ps prepared, c.op = .replaceConnections ps → s.prepareReplacement ps = .ok prepared →
    c.env.writeErr = none → ∀ p, some p ∈ ps → Named p

/-- What holds in every state of a portable run. -/
structure InStep (open_ : String → String → Except Error String) (s : Service) : Prop where
  numbered : s.core.Inv
  settled : All Settled s.connections
  named : All Named s.connections
  agrees : Agrees open_ s

variable {open_ : String → String → Except Error String}

/-- A file that was saved from the memory agrees with it. -/
theorem agrees_of_written {s t : Service} {env : Env} (h : Agrees open_ s) (hk : Keyed open_ env)
    (hw : Written env s t) (hi : t.core.Inv) (hs : All Settled t.connections)
    (hn : All Named t.connections) (hr : InRange t.connections) : Agrees open_ t := by
  intro endpoints env' hk' hr'
  rcases hw with ⟨hf, ho⟩ | ⟨m, hf, ho⟩
  · obtain ⟨u, hu, ho'⟩ := h endpoints env' hk' hr'
    exact ⟨u, by rw [hf]; exact hu, ho'.trans ho.symm⟩
  · have hlabels : SameLabels t.connections m := by
      intro k
      have hk := congrArg (·[k]?.map label) ho
      simp only [getElem?_offline, Option.map_map] at hk
      exact hk
    have hinv : StoreInv m t.nextID := StoreInv.of_sameLabels (m := t.connections) hi hlabels
    have hrange : InRange m := forall_of_offline (Q := fun p => p.id < 2 ^ 63)
      (fun p q he hp => by
        have := congrArg ConnectionProfile.id he
        change p.id = q.id at this
        change q.id < 2 ^ 63
        rwa [← this]) ho.symm hr
    obtain ⟨u, hu, hc⟩ := loadConnectionsFromFile_encode (s := fresh endpoints t.file) hk hk' hr'
      hf hinv (lasting_settled.of_offline hs ho) (lasting_named.of_offline hn ho) hrange
    exact ⟨u, hu, by rw [hc, offline_offline, ho]⟩

/-- A reload of a file that agrees with the memory is no change of either. -/
theorem written_reload {s : Service} {env : Env} (h : Agrees open_ s) (hk : env.openValue = open_) :
    Written env s (s.reload env).1 := by
  rcases reload_loaded s env with hc | ⟨t, ht, -, hw⟩
  · rw [hc]
    exact .refl env s
  · refine Written.trans ?_ hw
    rcases loadConnectionsFromFile_built ht with ⟨-, rfl⟩ | ⟨data, ps, hf, hft, -, -⟩
    · exact .refl env t
    · refine Or.inl ⟨hft, ?_⟩
      have hr : env.readErr = none := by
        unfold Service.loadConnectionsFromFile at ht
        cases hr : env.readErr with
        | none => rfl
        | some err =>
          rw [hr] at ht
          cases ht
      obtain ⟨u, hu, ho⟩ := h none env hk hr
      obtain ⟨u', hu', hc⟩ := loadConnectionsFromFile_congr (fresh none s.file) ht rfl hr rfl
        (by simp [hf])
      obtain rfl := Except.ok.inj (hu.symm.trans hu')
      rw [← hc, ho]

theorem inStep_exec {s : Service} (h : InStep open_ s) {c : Call} (hc : Portable open_ s c) :
    InStep open_ (exec s c) := by
  have hi := inv_exec h.numbered c
  have hs := settled_exec h.numbered h.settled c
  have hn : All Named (exec s c).connections :=
    lasting_named.exec h.numbered h.named fun ps prepared ho hp hw =>
      named_replacement hp (hc.named ps prepared ho hp hw)
  refine ⟨hi, hs, hn, agrees_of_written h.agrees hc.keyed ?_ hi hs hn hc.inRange⟩
  obtain ⟨op, env⟩ := c
  by_cases hop : op = .reload
  · subst hop
    exact written_reload h.agrees hc.keyed.key
  · exact written_exec h.numbered hop

/-- A service that has loaded its file is in step with it. -/
theorem inStep_loaded {endpoints : Option (MQKind → Bool)} {file : Option String} {env : Env}
    {s : Service} (h : (fresh endpoints file).loadConnectionsFromFile env = .ok s)
    (hk : env.openValue = open_) : InStep open_ s := by
  have hblank : All Settled (∅ : Profiles) ∧ All Named (∅ : Profiles) :=
    ⟨fun k p hp => by simp at hp, fun k p hp => by simp at hp⟩
  have hnew : Service.new endpoints file env = s := by
    unfold fresh at h
    unfold Service.new
    dsimp only
    rw [h]
  refine ⟨hnew ▸ inv_new endpoints file env, ?_, ?_, fun endpoints' env' hk' hr' => ?_⟩
  · rcases loadConnectionsFromFile_built h with ⟨-, rfl⟩ | ⟨data, ps, -, -, hb, hps⟩
    · exact hblank.1
    · rw [hb]
      exact settled_built ps fun p hp => (hps p hp).2
  · rcases loadConnectionsFromFile_built h with ⟨-, rfl⟩ | ⟨data, ps, -, -, hb, hps⟩
    · exact hblank.2
    · intro k q hq
      rw [hb] at hq
      obtain ⟨p, hp, id, d, rfl⟩ := mem_built hq
      exact lasting_named.loaded p id d (hps p hp).1 (hps p hp).2
  · rcases loadConnectionsFromFile_built h with ⟨hf, rfl⟩ | ⟨data, ps, hf, hft, -, -⟩
    · refine ⟨fresh endpoints' none, ?_, rfl⟩
      have hf : file = none := hf
      subst hf
      rw [Service.loadConnectionsFromFile, hr']
      rfl
    · obtain ⟨t, ht, hc⟩ := loadConnectionsFromFile_congr (fresh endpoints' s.file) h
        (hk'.trans hk.symm) hr' hft (by rw [hf]; simp)
      exact ⟨t, ht, by rw [hc]⟩

theorem InRange.of_nextID {s : Service} (hi : s.core.Inv) (h : s.nextID ≤ 2 ^ 63) :
    InRange s.connections :=
  fun _ _ hp => lt_of_lt_of_le (hi.id_lt hp) h

theorem keyed_calm : Keyed calm.openValue calm := ⟨rfl, fun _ _ => rfl⟩

end MqStudio.Connection
