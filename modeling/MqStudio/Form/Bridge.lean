import MqStudio.Connection.Settled
import MqStudio.Lib.MapFold
import MqStudio.Model.Kinds

/-!
# The connection bridge

`bridge/connection.go`: what a form submits, what it is shown of a stored profile,
and what becomes of the secrets it left blank.

* `redactConnection`: a profile without its secrets, only the keys that hold one.
* `applyCredentialsMode`: blank secrets kept, replaced or cleared.
* `secrets_applyCredentials`: what the service stores of the submitted secrets.
* `updateConnection_stored`: an update that is accepted and saved stores the profile
  `Service.edited` says, whatever the redial does.
-/

namespace MqStudio.Form

open Model Connection Lib.Json Lib.Errors Lib.Maps Lib.Text

/-! ### What crosses the bridge -/

/-- The connection shape sent to the frontend. -/
structure ConnectionView where
  id : Int
  name : String
  group : String
  kind : MQKind
  endpoints : String
  timeoutSec : Int64
  authMechanism : AuthMechanism
  options : Option StringMap
  secretsConfigured : List String
  status : ConnectionStatus
  lastCheck : String
  isDefault : Bool
  remark : String

/-- A connection form submission. -/
structure ConnectionInput where
  name : String
  group : String
  kind : MQKind
  endpoints : String
  timeoutSec : Int64
  auth : AuthMechanism
  options : Option StringMap
  secrets : StringMap
  remark : String
  credentialsMode : String

/-- The keys that hold a value, in order. -/
def configuredSecrets (p : ConnectionProfile) : List String :=
  (p.secrets.toList.filter fun e => e.2 ≠ "").map (·.1)

def redactConnection (p : ConnectionProfile) : ConnectionView where
  id := p.id
  name := p.name
  group := p.group
  kind := p.kind
  endpoints := p.endpoints
  timeoutSec := p.timeoutSec
  authMechanism := p.auth.mechanism
  options := p.options
  secretsConfigured := configuredSecrets p
  status := p.status
  lastCheck := p.lastCheck
  isDefault := p.isDefault
  remark := p.remark

/-- The secrets that hold a value. -/
def typedSecrets (secrets : StringMap) : StringMap := secrets.foldl setSecretIn ∅

def ConnectionInput.profile (input : ConnectionInput) : ConnectionProfile :=
  { ConnectionProfile.zero with
    name := input.name
    group := input.group
    kind := input.kind
    endpoints := input.endpoints
    timeoutSec := input.timeoutSec
    auth := ⟨input.auth⟩
    options := input.options
    remark := input.remark
    secrets := typedSecrets input.secrets }

/-! ### The calls -/

/-- The blank secrets filled with the stored ones. -/
def fillSecrets (profile current : ConnectionProfile) : ConnectionProfile :=
  current.secrets.foldl (fun profile key stored =>
    if profile.secret key = "" then profile.setSecret key stored else profile) profile

/-- Resolves the secrets a form left blank against what is stored. -/
def applyCredentialsMode (s : Service) (id : Int) (profile : ConnectionProfile) (mode : String) :
    Except Error ConnectionProfile :=
  if mode = "preserve" ∨ mode = "" then
    if id = 0 then .ok profile
    else match s.connections[id]? with
      | none => .error (.new s!"connection not found: {id}")
      | some current => .ok (fillSecrets profile current)
  else if mode = "clear" then .ok ({ profile with secrets := ∅ }.withMechanism authNone)
  else if mode = "replace" then .ok profile
  else .error (.new "invalid credentials mode")

def add (s : Service) (env : Env) (input : ConnectionInput) :
    Service × Option ConnectionView × Option Error :=
  match s.addConnection env input.profile with
  | (s, _, some err) => (s, none, some err)
  | (s, created, none) => (s, created.map redactConnection, none)

def update (s : Service) (env : Env) (id : Int) (input : ConnectionInput) :
    Service × Option ConnectionView × Option Error :=
  match applyCredentialsMode s id input.profile input.credentialsMode with
  | .error err => (s, none, some err)
  | .ok profile =>
    match s.updateConnection env id profile with
    | (s, _, some err) => (s, none, some err)
    | (s, updated, none) => (s, updated.map redactConnection, none)

/-! ### Secrets, one key at a time -/

/-- A value, unless it is blank. -/
def unlessBlank (value : String) : Option String := if value = "" then none else some value

theorem getElem?_typedSecrets (m : StringMap) (a : String) :
    (typedSecrets m)[a]? = m[a]?.bind unlessBlank := by
  have h := get_foldl (fun (m : StringMap) a => m[a]?) setSecretIn (fun _ v _ => unlessBlank v)
    (fun s k v a => getElem?_setSecretIn s k v a) m ∅ a
  rw [typedSecrets]
  refine h.trans ?_
  cases m[a]? <;> simp

theorem secret_eq_getD (p : ConnectionProfile) (key : String) :
    p.secret key = p.secrets[key]?.getD "" := by
  rw [ConnectionProfile.secret, Std.ExtTreeMap.getD_eq_getD_getElem?]

theorem fillSecrets_with (profile current : ConnectionProfile) :
    fillSecrets profile current =
      { profile with secrets := (fillSecrets profile current).secrets } := by
  rw [fillSecrets, Std.ExtTreeMap.foldl_eq_foldl_toList]
  generalize current.secrets.toList = entries
  induction entries generalizing profile with
  | nil => rfl
  | cons e entries ih =>
    rw [List.foldl_cons, ih]
    split <;> rfl

/-- A filled key holds what was typed, where that is not blank, and what is stored elsewhere. -/
theorem secrets_fillSecrets (profile current : ConnectionProfile) (a : String) :
    (fillSecrets profile current).secrets[a]? =
      (current.secrets[a]?.elim profile.secrets[a]? fun stored =>
        if profile.secrets[a]?.getD "" = "" then unlessBlank stored else profile.secrets[a]?) := by
  refine get_foldl (fun (p : ConnectionProfile) a => p.secrets[a]?)
    (fun p key stored => if p.secret key = "" then p.setSecret key stored else p)
    (fun _ stored old => if old.getD "" = "" then unlessBlank stored else old)
    (fun p k v a => ?_) current.secrets profile a
  simp only [secret_eq_getD]
  by_cases hk : k = a
  · subst hk
    by_cases hb : p.secrets[k]?.getD "" = ""
    · rw [if_pos hb, if_pos rfl, if_pos hb]
      simp only [ConnectionProfile.setSecret, getElem?_setSecretIn, if_pos, unlessBlank]
    · rw [if_neg hb, if_pos rfl, if_neg hb]
  · rw [if_neg hk]
    by_cases hb : p.secrets[k]?.getD "" = ""
    · rw [if_pos hb]
      simp only [ConnectionProfile.setSecret, getElem?_setSecretIn, if_neg hk]
    · rw [if_neg hb]

/-- The submitted secrets without the key pair and without blanks. -/
theorem secrets_applyCredentials (connection input : ConnectionProfile) (acl : ACL) (a : String) :
    (applyCredentials connection input acl).secrets[a]? =
      if secretSecretKey = a then
        (if acl.enabled ∧ acl.secretKey ≠ "" then some acl.secretKey else none)
      else if secretAccessKey = a then
        (if acl.enabled ∧ acl.accessKey ≠ "" then some acl.accessKey else none)
      else input.secrets[a]?.bind unlessBlank := by
  have hfold := get_foldl (fun (m : StringMap) a => m[a]?)
    (fun m key value =>
      if key = secretAccessKey ∨ key = secretSecretKey then m else setSecretIn m key value)
    (fun k v old =>
      if k = secretAccessKey ∨ k = secretSecretKey then old else unlessBlank v)
    (fun m k v a => by
      by_cases hp : k = secretAccessKey ∨ k = secretSecretKey
      · simp only [if_pos hp]
        split
        · rename_i hk
          rw [hk]
        · rfl
      · simp only [if_neg hp, getElem?_setSecretIn, unlessBlank]) input.secrets ∅ a
  have hsecrets : (applyCredentials connection input acl).secrets =
      withPair (input.secrets.foldl (fun m key value =>
        if key = secretAccessKey ∨ key = secretSecretKey then m else setSecretIn m key value) ∅)
        acl := by
    unfold applyCredentials
    dsimp only
    rw [setACL_eq]
    split <;> rfl
  rw [hsecrets, getElem?_withPair]
  split
  · rfl
  split
  · rfl
  · rename_i hs ha
    have hpair : ¬ (a = secretAccessKey ∨ a = secretSecretKey) := by
      rintro (rfl | rfl)
      · exact ha rfl
      · exact hs rfl
    rw [hfold, Std.ExtTreeMap.getElem?_empty]
    simp only [if_neg hpair]
    cases input.secrets[a]? <;> rfl

theorem mechanism_applyCredentials (connection input : ConnectionProfile) (acl : ACL) :
    (applyCredentials connection input acl).auth.mechanism =
      if acl.enabled then authACL
      else if input.auth.mechanism = ⟨""⟩ then authNone else input.auth.mechanism := by
  unfold applyCredentials
  dsimp only
  rw [setACL_eq]
  cases acl.enabled <;> by_cases h : input.auth.mechanism = ⟨""⟩ <;>
    simp [h, ConnectionProfile.withMechanism]

/-! ### What is stored of an input -/

/-- A profile as the service stores it from an input that passes its checks. -/
structure StoredFrom (input p : ConnectionProfile) : Prop where
  name : p.name = trimSpace input.name
  group : p.group = normalizeConnectionGroup input.group
  kind : input.kind ≠ ⟨""⟩ → p.kind = input.kind
  endpoints : p.endpoints = trimSpace input.endpoints
  timeoutSec : p.timeoutSec = input.timeoutSec
  mechanism : input.auth.mechanism ≠ ⟨""⟩ → p.auth.mechanism = input.auth.mechanism
  options : input.options.isSome → p.options = input.options
  secret : ∀ a, a ≠ secretAccessKey → a ≠ secretSecretKey →
    p.secrets[a]? = input.secrets[a]?.bind unlessBlank
  settled : Settled p

theorem validateConnectionFields_ok {s : Service} {kind : MQKind} {name endpoints : String}
    {timeoutSec : Int64} {r : String × String}
    (h : s.validateConnectionFields kind name endpoints timeoutSec = .ok r) :
    r = (trimSpace name, trimSpace endpoints) := by
  unfold Service.validateConnectionFields at h
  dsimp only at h
  split at h
  · cases h
  split at h
  · cases h
  split at h
  · cases h
  · exact (Except.ok.inj h).symm

theorem storedFrom_mechanism {connection input : ConnectionProfile} {acl : ACL}
    (ha : aclConfig input = .ok acl) (hm : input.auth.mechanism ≠ ⟨""⟩) :
    (applyCredentials connection input acl).auth.mechanism = input.auth.mechanism := by
  rw [mechanism_applyCredentials, (sound_of_aclConfig ha).2, if_neg hm]
  split
  · rename_i he
    exact (by simpa [ConnectionProfile.aclEnabled] using he : input.auth.mechanism = authACL).symm
  · rfl

theorem storedFrom_secret {connection input : ConnectionProfile} {acl : ACL} {a : String}
    (ha : a ≠ secretAccessKey) (hs : a ≠ secretSecretKey) :
    (applyCredentials connection input acl).secrets[a]? =
      input.secrets[a]?.bind unlessBlank := by
  rw [secrets_applyCredentials, if_neg hs.symm, if_neg ha.symm]

theorem applyCredentials_with (connection input : ConnectionProfile) (acl : ACL) :
    applyCredentials connection input acl = { connection with
      auth := (applyCredentials connection input acl).auth
      secrets := (applyCredentials connection input acl).secrets } := by
  unfold applyCredentials
  dsimp only
  rw [setACL_eq]
  split <;> rfl

theorem storedFrom_added {s : Service} {input p : ConnectionProfile}
    (h : s.added input = some p) : StoredFrom input p := by
  have hsettled := settled_added h
  unfold Service.added at h
  split at h
  · rename_i name endpoints acl hv ha
    obtain ⟨rfl, rfl⟩ := Prod.mk.inj (validateConnectionFields_ok hv)
    obtain rfl := Option.some.inj h
    refine ⟨?_, ?_, fun hk => ?_, ?_, ?_, storedFrom_mechanism ha, fun _ => ?_,
      fun a => storedFrom_secret, hsettled⟩ <;> rw [applyCredentials_with]
    exact if_neg hk
  · cases h

theorem storedFrom_edited {s : Service} {id : Int} {input p q : ConnectionProfile}
    (hp : s.connections[id]? = some p) (h : s.edited id input = some q) : StoredFrom input q := by
  have hsettled := settled_edited hp h
  obtain ⟨name, endpoints, acl, hv, ha, rfl⟩ := edited_eq hp h
  obtain ⟨rfl, rfl⟩ := Prod.mk.inj (validateConnectionFields_ok hv)
  refine ⟨?_, ?_, fun hk => ?_, ?_, ?_, storedFrom_mechanism ha, fun ho => ?_,
    fun a => storedFrom_secret, hsettled⟩ <;> rw [editProfile, applyCredentials_with]
  · exact if_pos hk
  · exact if_pos ho

/-- No blank is stored as a secret. -/
theorem StoredFrom.ne_blank {input p : ConnectionProfile} (h : StoredFrom input p) (a : String) :
    p.secrets[a]? ≠ some "" := by
  by_cases ha : a = secretAccessKey ∨ a = secretSecretKey
  · by_cases hm : p.auth.mechanism = authACL
    · obtain ⟨⟨v, hv, -, hne⟩, ⟨w, hw, -, hne'⟩⟩ := h.settled.pair hm
      rcases ha with rfl | rfl
      · simp [hv, hne]
      · simp [hw, hne']
    · obtain ⟨hv, hw⟩ := h.settled.plain hm
      rcases ha with rfl | rfl
      · simp [hv]
      · simp [hw]
  · push Not at ha
    rw [h.secret a ha.1 ha.2]
    cases input.secrets[a]? with
    | none => simp
    | some v => simp [unlessBlank]

/-! ### What an update leaves behind -/

/-- What a form writes of a profile, its remark apart. -/
structure Content where
  name : String
  group : String
  kind : MQKind
  endpoints : String
  timeoutSec : Int64
  mechanism : AuthMechanism
  options : Option StringMap
  secrets : StringMap

def content (p : ConnectionProfile) : Content where
  name := p.name
  group := p.group
  kind := p.kind
  endpoints := p.endpoints
  timeoutSec := p.timeoutSec
  mechanism := p.auth.mechanism
  options := p.options
  secrets := p.secrets

theorem updateConnection_refused {s : Service} {id : Int} {input : ConnectionProfile}
    (h : s.edited id input = none) (env : Env) :
    ∃ err, s.updateConnection env id input = (s, none, some err) := by
  unfold Service.edited at h
  unfold Service.updateConnection
  cases hv : s.validateConnectionFields (s.editedKind id input.kind) input.name input.endpoints
      input.timeoutSec with
  | error err => exact ⟨err, rfl⟩
  | ok r =>
    cases hp : s.connections[id]? with
    | none => exact ⟨_, rfl⟩
    | some previous =>
      cases ha : aclConfig input with
      | error err => exact ⟨err, rfl⟩
      | ok acl =>
        rw [hv, hp, ha] at h
        cases h

theorem updateConnection_eq {s : Service} {id : Int} {input edited : ConnectionProfile}
    (h : s.edited id input = some edited) (env : Env) :
    ∃ (previous current : ConnectionProfile) (redial : Bool),
      s.connections[id]? = some previous ∧ content current = content edited ∧
        s.updateConnection env id input = s.storeEdited env id previous current redial := by
  unfold Service.edited at h
  unfold Service.updateConnection
  split at h
  · rename_i name endpoints previous acl hv hp ha
    obtain rfl := Option.some.inj h
    rw [hv, hp, ha]
    refine ⟨previous, _, _, rfl, ?_, rfl⟩
    split <;> rfl
  · cases h

/-- An update that is accepted and saved stores the edited profile, whatever the redial does. -/
theorem updateConnection_stored {s : Service} {id : Int} {input edited : ConnectionProfile}
    (h : s.edited id input = some edited) {env : Env} (hw : env.writeErr = none) :
    ∃ q, (s.updateConnection env id input).1.connections[id]? = some q ∧
      content q = content edited := by
  obtain ⟨previous, current, redial, hp, hc, heq⟩ := updateConnection_eq h env
  have hget : (s.connections.insert id current)[id]? = some current := by
    rw [getElem?_insert, if_pos rfl]
  rw [heq]
  rcases storeEdited_cases env current redial hp with
    ⟨hne, -⟩ | ⟨-, -, hcore⟩ | ⟨-, hcore⟩ | ⟨-, hcore⟩
  · exact absurd hw hne
  · refine ⟨current, ?_, hc⟩
    rw [show (s.storeEdited env id previous current redial).1.connections =
      s.connections.insert id current from congrArg Core.connections hcore, hget]
  · refine ⟨current, ?_, hc⟩
    rw [show (s.storeEdited env id previous current redial).1.connections =
      s.connections.insert id current from congrArg Core.connections hcore, hget]
  · refine ⟨{ current with status := statusOnline, lastCheck := env.now }, ?_, hc⟩
    rw [show (s.storeEdited env id previous current redial).1.connections =
      (s.connections.insert id current).insert id
        { current with status := statusOnline, lastCheck := env.now } from
        congrArg Core.connections hcore, getElem?_insert, if_pos rfl]

/-- An update that is not saved changes no profile. -/
theorem updateConnection_unsaved {s : Service} {id : Int} {input edited : ConnectionProfile}
    (h : s.edited id input = some edited) {env : Env} (hw : env.writeErr ≠ none) :
    (s.updateConnection env id input).1.connections = s.connections ∧
      (s.updateConnection env id input).2.2 ≠ none := by
  obtain ⟨previous, current, redial, hp, -, heq⟩ := updateConnection_eq h env
  rw [heq, Service.storeEdited]
  obtain ⟨t, ht, hcore, -⟩ := saveConnectionsLocked_eq
    { s with connections := s.connections.insert id current } env env.writeErr
  rw [ht]
  have hconn : t.connections = s.connections.insert id current := Service.connections_of_core hcore
  cases hwe : env.writeErr with
  | none => exact absurd hwe hw
  | some err =>
    refine ⟨?_, by simp⟩
    change t.connections.insert id previous = s.connections
    rw [hconn]
    exact insert_insert_self current hp

theorem addConnection_stored {s : Service} {env : Env} {input : ConnectionProfile}
    (h : (s.addConnection env input).2.2 = none) :
    ∃ p, s.added input = some p ∧ (s.addConnection env input).1.connections[s.nextID]? = some p := by
  unfold Service.addConnection at h ⊢
  unfold Service.added
  dsimp only at h ⊢
  cases hv : s.validateConnectionFields (newKind input.kind) input.name input.endpoints
      input.timeoutSec with
  | error err => simp [hv] at h
  | ok r =>
    cases ha : aclConfig input with
    | error err => simp [hv, ha] at h
    | ok acl =>
      simp only [hv, ha] at h ⊢
      generalize hp : applyCredentials {
        id := s.nextID
        name := r.1
        group := normalizeConnectionGroup input.group
        endpoints := r.2
        timeoutSec := input.timeoutSec
        kind := newKind input.kind
        auth := ⟨⟨""⟩⟩
        options := input.options
        secrets := ∅
        status := statusOffline
        lastCheck := "-"
        isDefault := s.connections.isEmpty
        remark := input.remark } input acl = p at h ⊢
      have hid : p.id = s.nextID := by rw [← hp, applyCredentials_id]
      obtain ⟨t, ht, hc, -⟩ := saveConnectionsLocked_eq
        { s with connections := s.connections.insert p.id p } env env.writeErr
      rw [ht] at h ⊢
      have hconn : t.connections = s.connections.insert p.id p := Service.connections_of_core hc
      cases hw : env.writeErr with
      | some err => simp [hw] at h
      | none =>
        refine ⟨p, rfl, ?_⟩
        change t.connections[s.nextID]? = some p
        rw [hconn, hid, getElem?_insert, if_pos rfl]

/-! ### The calls of the bridge -/

/-- An addition without an error stores what the service makes of the input. -/
theorem add_stored {s : Service} {env : Env} {input : ConnectionInput}
    (h : (add s env input).2.2 = none) :
    ∃ p, StoredFrom input.profile p ∧ (add s env input).1.connections[s.nextID]? = some p := by
  unfold add at h ⊢
  have hstored := @addConnection_stored s env input.profile
  generalize s.addConnection env input.profile = r at h hstored ⊢
  obtain ⟨t, created, err⟩ := r
  cases err with
  | some err => cases h
  | none =>
    obtain ⟨p, hp, hget⟩ := hstored rfl
    exact ⟨p, storedFrom_added hp, hget⟩

/-- Whether an update passes the checks: the profile it stores where it is saved. -/
def accepted (s : Service) (id : Int) (input : ConnectionInput) : Option ConnectionProfile :=
  match applyCredentialsMode s id input.profile input.credentialsMode with
  | .error _ => none
  | .ok profile => s.edited id profile

theorem update_eq (s : Service) (env : Env) (id : Int) (input : ConnectionInput)
    {profile : ConnectionProfile}
    (h : applyCredentialsMode s id input.profile input.credentialsMode = .ok profile) :
    (update s env id input).1 = (s.updateConnection env id profile).1 ∧
      (update s env id input).2.2 = (s.updateConnection env id profile).2.2 := by
  simp only [update, h]
  generalize s.updateConnection env id profile = r
  obtain ⟨t, updated, err⟩ := r
  cases err <;> exact ⟨rfl, rfl⟩

/-- A refused update, and one that is not saved, change no profile and say so. -/
theorem update_unchanged {s : Service} {env : Env} {id : Int} {input : ConnectionInput}
    (h : accepted s id input = none ∨ env.writeErr ≠ none) :
    (update s env id input).1.connections = s.connections ∧ (update s env id input).2.2 ≠ none := by
  cases hm : applyCredentialsMode s id input.profile input.credentialsMode with
  | error err =>
    unfold update
    rw [hm]
    exact ⟨rfl, by simp⟩
  | ok profile =>
    obtain ⟨hs, he⟩ := update_eq s env id input hm
    rw [hs, he]
    cases hed : s.edited id profile with
    | none =>
      obtain ⟨err, heq⟩ := updateConnection_refused hed env
      rw [heq]
      exact ⟨rfl, by simp⟩
    | some edited =>
      rcases h with h | h
      · simp [accepted, hm, hed] at h
      · exact updateConnection_unsaved hed h

/-- **An accepted update that is saved** stores what the service makes of the filled input. -/
theorem update_stored {s : Service} {env : Env} {id : Int} {input : ConnectionInput}
    {edited : ConnectionProfile} (h : accepted s id input = some edited)
    (hw : env.writeErr = none) :
    ∃ q, (update s env id input).1.connections[id]? = some q ∧ content q = content edited := by
  unfold accepted at h
  split at h
  · cases h
  · rename_i profile hm
    obtain ⟨q, hq, hc⟩ := updateConnection_stored h hw
    exact ⟨q, by rw [(update_eq s env id input hm).1, hq], hc⟩

end MqStudio.Form
