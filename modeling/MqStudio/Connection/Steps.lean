import MqStudio.Connection.Operations

/-!
# What each call can do

One lemma for each call: the maps of stored profiles and of open clients, and the
next id, after it.  The invariants are derived from these and never unfold a
call.  `Service.core` is the part of the service they speak of; the data file
and the reload flag are left open.
-/

namespace MqStudio.Connection

open Model Lib.Errors Lib.Maps Lib.Text

/-- The stored profiles, the next id, the open clients and the endpoint policy. -/
structure Core where
  connections : Profiles
  nextID : Int
  clients : Profiles
  endpoints : Option (MQKind → Bool)

def Service.core (s : Service) : Core := ⟨s.connections, s.nextID, s.clients, s.endpoints⟩

/-- The core with other stored profiles. -/
def Core.store (c : Core) (m : Profiles) : Core := { c with connections := m }

/-- The core with other open clients. -/
def Core.hold (c : Core) (m : Profiles) : Core := { c with clients := m }

theorem Service.connections_of_core {s t : Service} (h : s.core = t.core) :
    s.connections = t.connections := congrArg Core.connections h

theorem Service.nextID_of_core {s t : Service} (h : s.core = t.core) : s.nextID = t.nextID :=
  congrArg Core.nextID h

theorem Service.clients_of_core {s t : Service} (h : s.core = t.core) : s.clients = t.clients :=
  congrArg Core.clients h

/-! ### Saving -/

theorem writeFile_eq (s : Service) (data : String) (e : Option Error) :
    ∃ t, s.writeFile data e = (t, e) ∧ t.core = s.core ∧ t.reconnectReload = s.reconnectReload := by
  cases e with
  | none => exact ⟨_, rfl, rfl, rfl⟩
  | some e => exact ⟨_, rfl, rfl, rfl⟩

theorem saveConnectionsLocked_eq (s : Service) (env : Env) (e : Option Error) :
    ∃ t, s.saveConnectionsLocked env e = (t, e) ∧ t.core = s.core ∧
      t.reconnectReload = s.reconnectReload :=
  writeFile_eq _ _ _

/-! ### Opening and closing -/

/-- The core with a profile opened: its status stored and its client held. -/
def Core.opened (c : Core) (env : Env) (id : Int) (p : ConnectionProfile) : Core :=
  (c.store (c.connections.insert id { p with status := statusOnline, lastCheck := env.now })).hold
    (c.clients.insert (resolveForDial env.settings p).id (resolveForDial env.settings p))

theorem connectRuntimeLocked_cases (s : Service) (env : Env) (id : Int) :
    ((s.connectRuntimeLocked env id).1.core = s.core ∧
      (s.connections[id]? = none ∨ env.dialErr ≠ none)) ∨
    ∃ p, s.connections[id]? = some p ∧ env.dialErr = none ∧
      (s.connectRuntimeLocked env id).1.core = s.core.opened env id p := by
  unfold Service.connectRuntimeLocked
  cases hp : s.connections[id]? with
  | none => exact Or.inl ⟨rfl, Or.inl rfl⟩
  | some p =>
    cases hd : env.dialErr with
    | some err => exact Or.inl ⟨rfl, Or.inr (by simp)⟩
    | none =>
      refine Or.inr ⟨p, rfl, rfl, ?_⟩
      dsimp only
      obtain ⟨t, ht, hc, -⟩ := saveConnectionsLocked_eq { s with
        clients := s.clients.insert (resolveForDial env.settings p).id (resolveForDial env.settings p)
        connections := s.connections.insert id
          { p with status := statusOnline, lastCheck := env.now } } env env.statusWriteErr
      rw [ht]
      cases env.statusWriteErr with
      | none => exact hc
      | some err => exact hc

theorem disconnect_cases (s : Service) (env : Env) (id : Int) :
    (s.disconnect env id).1.core = s.core ∨
    ∃ p, s.connections[id]? = some p ∧ (s.disconnect env id).1.core =
      (s.core.store (s.connections.insert id
        { p with status := statusOffline, lastCheck := env.now })).hold (s.clients.erase id) := by
  unfold Service.disconnect
  cases hp : s.connections[id]? with
  | none => exact Or.inl rfl
  | some p =>
    obtain ⟨t, ht, hc, -⟩ := saveConnectionsLocked_eq { s with
      clients := s.clients.erase id
      connections := s.connections.insert id
        { p with status := statusOffline, lastCheck := env.now } } env env.writeErr
    exact Or.inr ⟨p, rfl, (congrArg (·.1.core) ht).trans hc⟩

theorem testConnection_cases (s : Service) (env : Env) (id : Int) :
    (s.testConnection env id).1.core = s.core ∨
    ∃ p, s.connections[id]? = some p ∧ (s.testConnection env id).1.core =
      s.core.store (s.connections.insert id { p with lastCheck := env.now }) := by
  unfold Service.testConnection
  cases hp : s.connections[id]? with
  | none => exact Or.inl rfl
  | some p => exact Or.inr ⟨p, rfl, by cases env.dialErr <;> rfl⟩

/-! ### Reloading -/

/-- A default id other than zero names a stored default profile. -/
theorem defaultID_cases (m : Profiles) :
    defaultID m = 0 ∨ ∃ (k : Int) (p : ConnectionProfile), m[k]? = some p ∧ p.isDefault = true ∧
      defaultID m = p.id := by
  unfold defaultID
  cases hf : (copyConnectionsSorted m).find? (·.isDefault) with
  | none => exact Or.inl rfl
  | some p =>
    obtain ⟨k, hk⟩ := mem_values.mp (List.mem_of_find?_eq_some hf)
    exact Or.inr ⟨k, p, hk, by simpa using List.find?_some hf, rfl⟩

/-- Every client is closed, and at most the default profile is opened again. -/
theorem restoreRuntimeLocked_cases (s : Service) (env : Env) (plan : Bool) :
    (s.restoreRuntimeLocked env plan).1.core = s.core.hold ∅ ∨
    ∃ p, s.connections[defaultID s.connections]? = some p ∧ env.dialErr = none ∧
      (s.restoreRuntimeLocked env plan).1.core =
        (s.core.hold ∅).opened env (defaultID s.connections) p := by
  unfold Service.restoreRuntimeLocked
  dsimp only
  split
  · have h := connectRuntimeLocked_cases { s with clients := ∅ } env (defaultID s.connections)
    generalize hr : ({ s with clients := ∅ } : Service).connectRuntimeLocked env
      (defaultID s.connections) = r at h
    obtain ⟨t, e⟩ := r
    rcases h with ⟨h, -⟩ | ⟨p, hp, hd, h⟩
    · left
      cases e with
      | none => exact h
      | some err => exact h
    · refine Or.inr ⟨p, hp, hd, ?_⟩
      cases e with
      | none => exact h
      | some err => exact h
  · exact Or.inl rfl

/-- The core with the profiles a list of saved ones is built into. -/
def Core.built (c : Core) (ps : List (Option ConnectionProfile)) : Core :=
  { c with connections := (buildConnectionState ps).1, nextID := (buildConnectionState ps).2 }

theorem loadConnectionsFromFile_cases {s t : Service} {env : Env}
    (h : s.loadConnectionsFromFile env = .ok t) :
    t.core = s.core ∨ ∃ ps, t.core = s.core.built ps := by
  unfold Service.loadConnectionsFromFile at h
  split at h
  · cases h
  · exact Or.inl (congrArg Service.core (Except.ok.inj h).symm)
  · rename_i data hr hf
    simp only [bind, Except.bind] at h
    split at h
    · cases h
    split at h
    · cases h
    · rename_i ps hps
      exact Or.inr ⟨ps.map some, (congrArg Service.core (Except.ok.inj h).symm).trans rfl⟩

/-- A reload leaves the state alone, or builds it anew and restores the runtime. -/
theorem reload_cases (s : Service) (env : Env) :
    (s.reload env).1.core = s.core ∨
    ∃ (t : Service) (plan : Bool), (t.core = s.core ∨ ∃ ps, t.core = s.core.built ps) ∧
      s.reload env = t.restoreRuntimeLocked env plan := by
  unfold Service.reload
  cases hl : s.loadConnectionsFromFile env with
  | error err => exact Or.inl rfl
  | ok t =>
    have h := loadConnectionsFromFile_cases hl
    exact Or.inr ⟨{ t with reconnectReload := s.reloadPlanLocked }, s.reloadPlanLocked, h, rfl⟩

/-- A replacement leaves the state alone, or builds it anew and restores the runtime. -/
theorem replaceConnections_cases (s : Service) (env : Env) (ps : List (Option ConnectionProfile)) :
    (s.replaceConnections env ps).1.core = s.core ∨
    ∃ (t : Service) (plan : Bool) (prepared : List ConnectionProfile),
      s.prepareReplacement ps = .ok prepared ∧
      t.core = s.core.built (prepared.map some) ∧
      s.replaceConnections env ps = t.restoreRuntimeLocked env plan := by
  unfold Service.replaceConnections
  cases hp : s.prepareReplacement ps with
  | error err => exact Or.inl rfl
  | ok prepared =>
    obtain ⟨t, ht, hc, -⟩ := writeFile_eq s (encodeConnectionsForDisk env prepared) env.writeErr
    dsimp only
    rw [ht]
    cases hw : env.writeErr with
    | some err => exact Or.inl hc
    | none =>
      refine Or.inr ⟨_, _, prepared, rfl, ?_, rfl⟩
      exact congrArg (Core.built · (prepared.map some)) hc

/-! ### Editing -/

/-- An edit is undone where the save fails; where the client was stale it is closed, and opened
again if the dial succeeds. -/
theorem storeEdited_cases {s : Service} (env : Env) {id : Int} {previous : ConnectionProfile}
    (current : ConnectionProfile) (redial : Bool) (hp : s.connections[id]? = some previous) :
    (env.writeErr ≠ none ∧ (s.storeEdited env id previous current redial).1.core = s.core) ∨
    (env.writeErr = none ∧ redial = false ∧ (s.storeEdited env id previous current redial).1.core =
      s.core.store (s.connections.insert id current)) ∨
    (redial = true ∧ (s.storeEdited env id previous current redial).1.core =
      (s.core.store (s.connections.insert id current)).hold (s.clients.erase id)) ∨
    (redial = true ∧ (s.storeEdited env id previous current redial).1.core =
      ((s.core.store (s.connections.insert id current)).hold (s.clients.erase id)).opened env id
        current) := by
  unfold Service.storeEdited
  dsimp only
  obtain ⟨t, ht, hc, -⟩ := saveConnectionsLocked_eq
    { s with connections := s.connections.insert id current } env env.writeErr
  rw [ht]
  have hconn : t.connections = s.connections.insert id current := Service.connections_of_core hc
  cases hw : env.writeErr with
  | some err =>
    refine Or.inl ⟨by simp, ?_⟩
    have hback : t.connections.insert id previous = s.connections := by
      rw [hconn]
      exact insert_insert_self current hp
    have hcore : t.core.store (t.connections.insert id previous) = s.core := by
      rw [hc, hback]
      rfl
    exact hcore
  | none =>
    refine Or.inr ?_
    cases redial with
    | false => exact Or.inl ⟨rfl, rfl, hc⟩
    | true =>
      refine Or.inr ?_
      simp only [true_and, if_true]
      have hcore : ({ t with clients := t.clients.erase id } : Service).core =
          (s.core.store (s.connections.insert id current)).hold (s.clients.erase id) := by
        have hh := congrArg (fun c : Core => c.hold (c.clients.erase id)) hc
        exact hh
      have h := connectRuntimeLocked_cases { t with clients := t.clients.erase id } env id
      generalize ({ t with clients := t.clients.erase id } : Service).connectRuntimeLocked env id =
        r at h
      obtain ⟨u, e⟩ := r
      rcases h with ⟨h, -⟩ | ⟨p, hp', -, h⟩
      · left
        cases e with
        | none => exact h.trans hcore
        | some err => exact h.trans hcore
      · have hedited : p = current := by
          rw [hconn, getElem?_insert, if_pos rfl] at hp'
          exact (Option.some.inj hp').symm
        rw [hcore, hedited] at h
        right
        cases e with
        | none => exact h
        | some err => exact h

/-- The profile an `UpdateConnection` that passes its checks stores. -/
def Service.edited (s : Service) (id : Int) (input : ConnectionProfile) : Option ConnectionProfile :=
  match s.validateConnectionFields (s.editedKind id input.kind) input.name input.endpoints
      input.timeoutSec, s.connections[id]?, aclConfig input with
  | .ok (name, endpoints), some previous, .ok acl =>
      some (editProfile previous input name endpoints acl)
  | _, _, _ => none

/-- An update is refused, or stores the edited profile, off line where its client went stale. -/
theorem updateConnection_cases (s : Service) (env : Env) (id : Int) (input : ConnectionProfile) :
    (s.updateConnection env id input).1 = s ∨
    ∃ previous edited, s.connections[id]? = some previous ∧ s.edited id input = some edited ∧
      s.updateConnection env id input = s.storeEdited env id previous
        (if dialParametersChanged previous edited then { edited with status := statusOffline }
          else edited)
        (dialParametersChanged previous edited && previous.status = statusOnline) := by
  unfold Service.updateConnection Service.edited
  cases s.validateConnectionFields (s.editedKind id input.kind) input.name input.endpoints
      input.timeoutSec with
  | error err => exact Or.inl rfl
  | ok r =>
    cases s.connections[id]? with
    | none => exact Or.inl rfl
    | some previous =>
      cases aclConfig input with
      | error err => exact Or.inl rfl
      | ok acl => exact Or.inr ⟨previous, _, rfl, rfl, rfl⟩

/-- An option change is refused, changes nothing, or stores the new options off line. -/
theorem setOption_cases (s : Service) (env : Env) (id : Int) (key value : String) :
    (s.setOption env id key value).1 = s ∨
    ∃ previous options, s.connections[id]? = some previous ∧
      s.setOption env id key value = s.storeEdited env id previous
        { previous with options := some options, status := statusOffline }
        (previous.status = statusOnline) := by
  unfold Service.setOption
  dsimp only
  split
  · exact Or.inl rfl
  · cases s.connections[id]? with
    | none => exact Or.inl rfl
    | some previous =>
      dsimp only
      generalize (if value = "" then (previous.options.getD ∅).erase (trimSpace key)
        else (previous.options.getD ∅).insert (trimSpace key) value) = options
      by_cases ho : optionsMap previous = options
      · exact Or.inl (by rw [if_pos ho])
      · exact Or.inr ⟨previous, options, rfl, by rw [if_neg ho]⟩

/-! ### Adding, deleting, choosing the default -/

/-- The profile an `AddConnection` that passes its checks stores. -/
def Service.added (s : Service) (input : ConnectionProfile) : Option ConnectionProfile :=
  match s.validateConnectionFields (newKind input.kind) input.name input.endpoints
      input.timeoutSec, aclConfig input with
  | .ok (name, endpoints), .ok acl =>
      some (applyCredentials {
        id := s.nextID
        name := name
        group := normalizeConnectionGroup input.group
        endpoints := endpoints
        timeoutSec := input.timeoutSec
        kind := newKind input.kind
        auth := ⟨⟨""⟩⟩
        options := input.options
        secrets := ∅
        status := statusOffline
        lastCheck := "-"
        isDefault := s.connections.isEmpty
        remark := input.remark } input acl)
  | _, _ => none

@[simp] theorem applyCredentials_id (connection input : ConnectionProfile) (acl : ACL) :
    (applyCredentials connection input acl).id = connection.id := by
  unfold applyCredentials ConnectionProfile.setACL
  dsimp only
  split <;> split <;> rfl

@[simp] theorem applyCredentials_isDefault (connection input : ConnectionProfile) (acl : ACL) :
    (applyCredentials connection input acl).isDefault = connection.isDefault := by
  unfold applyCredentials ConnectionProfile.setACL
  dsimp only
  split <;> split <;> rfl

theorem added_facts {s : Service} {input p : ConnectionProfile} (h : s.added input = some p) :
    p.id = s.nextID ∧ p.isDefault = s.connections.isEmpty := by
  unfold Service.added at h
  split at h
  · obtain rfl := Option.some.inj h
    exact ⟨applyCredentials_id _ _ _, applyCredentials_isDefault _ _ _⟩
  · cases h

/-- An addition is refused, is undone where the save fails, or stores the profile under the
next id. -/
theorem addConnection_cases {s : Service} (env : Env) (input : ConnectionProfile)
    (hfree : s.connections[s.nextID]? = none) :
    (s.addConnection env input).1.core = s.core ∨
    ∃ p, s.added input = some p ∧ (s.addConnection env input).1.core =
      { s.core.store (s.connections.insert s.nextID p) with nextID := s.nextID + 1 } := by
  unfold Service.addConnection Service.added
  dsimp only
  cases s.validateConnectionFields (newKind input.kind) input.name input.endpoints
      input.timeoutSec with
  | error err => exact Or.inl rfl
  | ok r =>
    cases aclConfig input with
    | error err => exact Or.inl rfl
    | ok acl =>
      dsimp only
      generalize hp : applyCredentials {
        id := s.nextID
        name := r.1
        group := normalizeConnectionGroup input.group
        endpoints := r.2
        timeoutSec := input.timeoutSec
        kind := newKind input.kind
        auth := ⟨⟨""⟩⟩
        options := input.options
        secrets := ∅
        status := statusOffline
        lastCheck := "-"
        isDefault := s.connections.isEmpty
        remark := input.remark } input acl = p
      have hid : p.id = s.nextID := by rw [← hp, applyCredentials_id]
      obtain ⟨t, ht, hc, -⟩ := saveConnectionsLocked_eq
        { s with connections := s.connections.insert p.id p } env env.writeErr
      rw [ht]
      have hconn : t.connections = s.connections.insert p.id p := Service.connections_of_core hc
      cases env.writeErr with
      | some err =>
        have hcore : t.core.store (t.connections.erase p.id) = s.core := by
          rw [hc, hconn, hid, erase_insert_self p hfree]
          rfl
        exact Or.inl hcore
      | none =>
        refine Or.inr ⟨p, rfl, ?_⟩
        have hcore : { t.core with nextID := t.nextID + 1 } =
            { s.core.store (s.connections.insert s.nextID p) with nextID := s.nextID + 1 } := by
          rw [Service.nextID_of_core hc, hc, hid]
          rfl
        exact hcore

/-- A map with one key is empty without it. -/
theorem erase_eq_empty_of_size_le {ν : Type} {m : Std.ExtTreeMap Int ν compare} {id : Int} {p : ν}
    (hp : m[id]? = some p) (h : ¬ 1 < m.size) : m.erase id = ∅ := by
  have hmem : m.contains id = true := by simp [Std.ExtTreeMap.contains_eq_isSome_getElem?, hp]
  have hs : (m.erase id).size = 0 := by
    rw [Std.ExtTreeMap.size_erase, if_pos hmem]
    omega
  rwa [← Std.ExtTreeMap.eq_empty_iff_size_eq_zero] at hs

/-- A deletion that is not refused leaves no other profile to make the default. -/
theorem newDefaultID_eq_zero {m : Profiles} {id : Int} {p : ConnectionProfile}
    (hp : m[id]? = some p) (h : ¬ (p.isDefault && decide (1 < m.size)) = true) :
    (if p.isDefault = true then (sortedConnectionIDs (m.erase id)).headD 0 else 0) = 0 := by
  split
  · rename_i hd
    rw [erase_eq_empty_of_size_le hp (by simpa [hd] using h), sortedConnectionIDs,
      keys_eq_nil_iff.mpr rfl]
    rfl
  · rfl

/-- A deletion is refused, is undone where the save fails, or takes the profile out; the default
profile can only go last. -/
theorem deleteConnection_cases (s : Service) (env : Env) (id : Int) :
    (s.deleteConnection env id).1.core = s.core ∨
    ∃ p, s.connections[id]? = some p ∧ (p.isDefault = true → s.connections.erase id = ∅) ∧
      (s.deleteConnection env id).1.core = (s.core.store (s.connections.erase id)).hold
        (if p.status = statusOnline then s.clients.erase id else s.clients) := by
  unfold Service.deleteConnection
  cases hp : s.connections[id]? with
  | none => exact Or.inl rfl
  | some p =>
    dsimp only
    split
    · exact Or.inl rfl
    · rename_i hcond
      have hlast : p.isDefault = true → s.connections.erase id = ∅ := by
        intro hd
        exact erase_eq_empty_of_size_le hp (by simpa [hd] using hcond)
      have hnew := newDefaultID_eq_zero hp hcond
      simp only [hnew, ne_eq, not_true_eq_false, if_false]
      obtain ⟨t, ht, hc, -⟩ := saveConnectionsLocked_eq
        { s with connections := s.connections.erase id } env env.writeErr
      rw [ht]
      have hconn : t.connections = s.connections.erase id := Service.connections_of_core hc
      cases env.writeErr with
      | some err =>
        have hcore : t.core.store (t.connections.insert id p) = s.core := by
          rw [hc, hconn, insert_erase_self hp]
          rfl
        exact Or.inl hcore
      | none =>
        refine Or.inr ⟨p, rfl, hlast, ?_⟩
        dsimp only
        split
        · exact congrArg (fun c : Core => c.hold (c.clients.erase id)) hc
        · exact hc

/-- The default flags put back after a failed choice of another default. -/
def restoredDefaults (m : Profiles) (id : Int) : Profiles :=
  let restored := setDefaultFlag (setDefaultFlag (clearDefaults m) id true) id false
  if defaultID m ≠ 0 then setDefaultFlag restored (defaultID m) true else restored

theorem setDefaultConnection_cases (s : Service) (env : Env) (id : Int) :
    (s.setDefaultConnection env id).1.core = s.core ∨
    ∃ p, s.connections[id]? = some p ∧ p.isDefault = false ∧
      ((s.setDefaultConnection env id).1.core =
          s.core.store (setDefaultFlag (clearDefaults s.connections) id true) ∨
        (s.setDefaultConnection env id).1.core =
          s.core.store (restoredDefaults s.connections id)) := by
  unfold Service.setDefaultConnection
  cases hp : s.connections[id]? with
  | none => exact Or.inl rfl
  | some p =>
    dsimp only
    split
    · exact Or.inl rfl
    · rename_i hd
      refine Or.inr ⟨p, rfl, by simpa using hd, ?_⟩
      obtain ⟨t, ht, hc, -⟩ := saveConnectionsLocked_eq
        { s with connections := setDefaultFlag (clearDefaults s.connections) id true } env
        env.writeErr
      rw [ht]
      have hconn : t.connections = setDefaultFlag (clearDefaults s.connections) id true :=
        Service.connections_of_core hc
      cases env.writeErr with
      | none => exact Or.inl hc
      | some err =>
        refine Or.inr ?_
        have hcore : t.core.store (restoredDefaults s.connections id) =
            s.core.store (restoredDefaults s.connections id) := by
          rw [hc]
          rfl
        rw [restoredDefaults, ← hconn] at hcore ⊢
        exact hcore

end MqStudio.Connection
