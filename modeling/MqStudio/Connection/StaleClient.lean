import MqStudio.Connection.Invariant

/-!
# Stale clients

An open client is stale where it was dialled with something the stored profile no
longer says.  `dialParams` is what a driver reads of a profile.

* `held_exec`: a call keeps every client fresh, unless it is an `UpdateConnection`
  that changes the kind or the mechanism of an open profile and nothing else
  `dialParametersChanged` compares.
* `noStaleClient_run`: so no run without such a call has a stale client.
* `staleClient_after_update`: a Kafka connection whose mechanism is edited from
  plain to SCRAM keeps the client that logged in with plain.

The invariant carried along a run is `Held`: a client is held only for a stored
profile that is on line, and was dialled as that profile would be now.
-/

namespace MqStudio.Connection

open Model Lib.Maps Lib.Text

/-! ### What a dial reads -/

/-- What a driver reads of a resolved profile. -/
structure DialParams where
  kind : MQKind
  endpoints : String
  timeoutSec : Int64
  mechanism : AuthMechanism
  options : Lib.Json.StringMap
  secrets : Lib.Json.StringMap
deriving DecidableEq

def dialParams (p : ConnectionProfile) : DialParams where
  kind := p.kind
  endpoints := p.endpoints
  timeoutSec := p.timeoutSec
  mechanism := p.auth.mechanism
  options := optionsMap p
  secrets := p.secrets

/-- Every client was dialled as its stored profile would be now. -/
def NoStaleClient (settings : Option AppSettings) (s : Service) : Prop :=
  ∀ (id : Int) (d : ConnectionProfile), s.clients[id]? = some d →
    ∃ p, s.connections[id]? = some p ∧ dialParams d = dialParams (resolveForDial settings p)

theorem getConnectTimeout_congr {settings : Option AppSettings} {p q : ConnectionProfile}
    (h : p.timeoutSec = q.timeoutSec) :
    getConnectTimeout settings p = getConnectTimeout settings q := by
  simp only [getConnectTimeout, h]

theorem resolveACLCredentials_congr {settings : Option AppSettings} {p q : ConnectionProfile}
    (hm : p.auth.mechanism = q.auth.mechanism) (hs : p.secrets = q.secrets) :
    resolveACLCredentials settings p = resolveACLCredentials settings q := by
  simp only [resolveACLCredentials, ConnectionProfile.aclEnabled, ConnectionProfile.secret, hm, hs]

/-- What a resolved profile is dialled with, by parts. -/
theorem dialParams_resolveForDial (settings : Option AppSettings) (p : ConnectionProfile) :
    dialParams (resolveForDial settings p) =
      let acl := resolveACLCredentials settings p
      { kind := p.kind
        endpoints := p.endpoints
        timeoutSec := getConnectTimeout settings p / second
        mechanism :=
          if acl.enabled then authACL
          else if p.auth.mechanism ≠ ⟨""⟩ then p.auth.mechanism else authNone
        options := optionsMap p
        secrets := setSecretIn (setSecretIn p.secrets secretAccessKey
          (if acl.enabled then acl.accessKey else "")) secretSecretKey
          (if acl.enabled then acl.secretKey else "") } := by
  simp only [resolveForDial, ConnectionProfile.setACL]
  cases (resolveACLCredentials settings p).enabled <;>
    by_cases hm : p.auth.mechanism = ⟨""⟩ <;>
    simp [hm, dialParams, optionsMap, ConnectionProfile.setSecret, ConnectionProfile.withMechanism]

/-- Profiles that agree on what a dial reads resolve to the same dial. -/
theorem dialParams_resolveForDial_congr {settings : Option AppSettings} {p q : ConnectionProfile}
    (h : dialParams p = dialParams q) :
    dialParams (resolveForDial settings p) = dialParams (resolveForDial settings q) := by
  simp only [dialParams, DialParams.mk.injEq] at h
  obtain ⟨hk, he, ht, hm, ho, hs⟩ := h
  rw [dialParams_resolveForDial, dialParams_resolveForDial, resolveACLCredentials_congr hm hs,
    getConnectTimeout_congr ht]
  simp only [hk, he, hm, ho, hs]

@[simp] theorem resolveForDial_id (settings : Option AppSettings) (p : ConnectionProfile) :
    (resolveForDial settings p).id = p.id := by
  unfold resolveForDial ConnectionProfile.setACL
  dsimp only
  split <;> split <;> rfl

/-! ### The invariant -/

variable {settings : Option AppSettings}

/-- The clients that are held, and what they were dialled with. -/
def Core.Held (settings : Option AppSettings) (c : Core) : Prop :=
  ∀ (id : Int) (d : ConnectionProfile), c.clients[id]? = some d →
    ∃ p, c.connections[id]? = some p ∧ p.status = statusOnline ∧
      dialParams d = dialParams (resolveForDial settings p)

/-- A stored profile may change in what no dial reads; one without a client may change freely. -/
theorem Core.Held.store_insert {c : Core} (h : c.Held settings) {id : Int}
    {p q : ConnectionProfile} (hp : c.connections[id]? = some p)
    (hq : ∀ d, c.clients[id]? = some d → q.status = p.status ∧ dialParams q = dialParams p) :
    (c.store (c.connections.insert id q)).Held settings := by
  intro a d hd
  obtain ⟨r, hr, hs, hdial⟩ := h a d hd
  by_cases ha : id = a
  · subst ha
    obtain rfl := Option.some.inj (hp.symm.trans hr)
    obtain ⟨hqs, hqd⟩ := hq d hd
    refine ⟨q, (getElem?_insert _ _ _ _).trans (if_pos rfl), hqs.trans hs, ?_⟩
    rw [hdial, dialParams_resolveForDial_congr hqd]
  · exact ⟨r, (getElem?_insert _ _ _ _).trans ((if_neg ha).trans hr), hs, hdial⟩

/-- A profile whose client is closed may change freely. -/
theorem Core.Held.closed {c : Core} (h : c.Held settings) (id : Int) (m : Profiles)
    (hm : ∀ a : Int, a ≠ id → m[a]? = c.connections[a]?) :
    ((c.store m).hold (c.clients.erase id)).Held settings := by
  intro a d hd
  have hd' : (c.clients.erase id)[a]? = some d := hd
  rw [getElem?_erase] at hd'
  split at hd'
  · cases hd'
  · rename_i hne
    obtain ⟨p, hp, hrest⟩ := h a d hd'
    exact ⟨p, (hm a (Ne.symm hne)).trans hp, hrest⟩

theorem Core.held_hold_empty (c : Core) : (c.hold ∅).Held settings := by
  intro a d hd
  simp [Core.hold] at hd

theorem Core.Held.opened {c : Core} (h : c.Held settings) {env : Env}
    (henv : env.settings = settings) {id : Int} {p : ConnectionProfile} (hid : p.id = id) :
    (c.opened env id p).Held settings := by
  subst henv hid
  intro a d hd
  have hd' : (c.clients.insert (resolveForDial env.settings p).id
    (resolveForDial env.settings p))[a]? = some d := hd
  rw [getElem?_insert, resolveForDial_id] at hd'
  by_cases ha : p.id = a
  · rw [if_pos ha] at hd'
    obtain rfl := Option.some.inj hd'
    refine ⟨_, (getElem?_insert _ _ _ _).trans (if_pos ha), rfl, ?_⟩
    exact dialParams_resolveForDial_congr rfl
  · rw [if_neg ha] at hd'
    obtain ⟨q, hq, hrest⟩ := h a d hd'
    exact ⟨q, (getElem?_insert _ _ _ _).trans ((if_neg ha).trans hq), hrest⟩

/-! ### What an update stores -/

/-- The credentials a submission carries: blank ones dropped, the ACL pair trimmed. -/
def submittedSecrets (input : ConnectionProfile) : Lib.Json.StringMap :=
  let rest := input.secrets.foldl (fun m key value =>
    if key = secretAccessKey ∨ key = secretSecretKey then m else setSecretIn m key value) ∅
  setSecretIn
    (setSecretIn rest secretAccessKey
      (if input.aclEnabled then trimSpace (input.secret secretAccessKey) else ""))
    secretSecretKey (if input.aclEnabled then trimSpace (input.secret secretSecretKey) else "")

/-- What a dial would read of a profile after a submission is written over it. -/
def submitted (p input : ConnectionProfile) : DialParams where
  kind := if input.kind ≠ ⟨""⟩ then input.kind else p.kind
  endpoints := trimSpace input.endpoints
  timeoutSec := input.timeoutSec
  mechanism := if input.auth.mechanism ≠ ⟨""⟩ then input.auth.mechanism else authNone
  options := if input.options.isSome then optionsMap input else optionsMap p
  secrets := submittedSecrets input

theorem aclConfig_ok {p : ConnectionProfile} {acl : ACL} (h : aclConfig p = .ok acl) :
    acl = if p.aclEnabled then
        ⟨true, trimSpace (p.secret secretAccessKey), trimSpace (p.secret secretSecretKey)⟩
      else ⟨false, "", ""⟩ := by
  unfold aclConfig normalizeACLConfig at h
  cases he : p.aclEnabled with
  | false =>
    rw [he] at h
    simp only [Bool.not_false, if_true, Except.ok.injEq] at h
    simp [← h]
  | true =>
    rw [he] at h
    simp only [Bool.not_true, Bool.false_eq_true, if_false] at h
    split at h
    · cases h
    split at h
    · cases h
    · simp [← Except.ok.inj h]

theorem validateConnectionFields_ok {s : Service} {kind : MQKind} {name endpoints : String}
    {timeoutSec : Int64} {r : String × String}
    (h : s.validateConnectionFields kind name endpoints timeoutSec = .ok r) :
    r = (trimSpace name, trimSpace endpoints) := by
  unfold Service.validateConnectionFields at h
  dsimp only at h
  split at h
  · cases h
  split at h
  · cases h
  split at h
  · cases h
  · exact (Except.ok.inj h).symm

theorem dialParams_applyCredentials {p input : ConnectionProfile} {acl : ACL}
    (h : aclConfig input = .ok acl) :
    dialParams (applyCredentials p input acl) =
      { dialParams p with
        mechanism := if input.auth.mechanism ≠ ⟨""⟩ then input.auth.mechanism else authNone
        secrets := submittedSecrets input } := by
  obtain rfl := aclConfig_ok h
  cases he : input.aclEnabled with
  | false =>
    by_cases hm : input.auth.mechanism = ⟨""⟩ <;>
      simp [hm, he, applyCredentials, submittedSecrets, dialParams, optionsMap,
        ConnectionProfile.setACL, ConnectionProfile.setSecret, ConnectionProfile.withMechanism]
  | true =>
    have hm : input.auth.mechanism = authACL := by
      simpa [ConnectionProfile.aclEnabled] using he
    have hne : authACL ≠ ⟨""⟩ := by decide
    simp [hm, hne, he, applyCredentials, submittedSecrets, dialParams, optionsMap,
      ConnectionProfile.setACL, ConnectionProfile.setSecret, ConnectionProfile.withMechanism]

theorem dialParams_edited {s : Service} {id : Int} {input p q : ConnectionProfile}
    (hp : s.connections[id]? = some p) (h : s.edited id input = some q) :
    dialParams q = submitted p input := by
  obtain ⟨name, endpoints, acl, hv, ha, rfl⟩ := edited_eq hp h
  have hr := validateConnectionFields_ok hv
  simp only [Prod.mk.injEq] at hr
  obtain ⟨-, rfl⟩ := hr
  have hd := dialParams_applyCredentials (p := { p with
    name := name
    group := normalizeConnectionGroup input.group
    endpoints := trimSpace input.endpoints
    kind := if input.kind ≠ ⟨""⟩ then input.kind else p.kind
    options := if input.options.isSome then input.options else p.options
    timeoutSec := input.timeoutSec }) ha
  have he : dialParams (editProfile p input name (trimSpace input.endpoints) acl) =
      dialParams (applyCredentials { p with
        name := name
        group := normalizeConnectionGroup input.group
        endpoints := trimSpace input.endpoints
        kind := if input.kind ≠ ⟨""⟩ then input.kind else p.kind
        options := if input.options.isSome then input.options else p.options
        timeoutSec := input.timeoutSec } input acl) := rfl
  rw [he, hd]
  by_cases ho : input.options.isSome <;> simp [dialParams, submitted, optionsMap, ho]

/-- What `dialParametersChanged` compares. -/
def comparedInputsDiffer (a b : DialParams) : Bool :=
  a.endpoints ≠ b.endpoints || a.timeoutSec ≠ b.timeoutSec ||
    (a.mechanism = authACL : Bool) ≠ (b.mechanism = authACL : Bool) ||
    a.options ≠ b.options || a.secrets ≠ b.secrets

theorem dialParametersChanged_eq (p q : ConnectionProfile) :
    dialParametersChanged p q = comparedInputsDiffer (dialParams p) (dialParams q) := rfl

/-- It compares everything a dial reads but the kind and the mechanism. -/
theorem dialParams_eq_of_not_differ {a b : DialParams} (h : comparedInputsDiffer a b = false)
    (hk : a.kind = b.kind) (hm : a.mechanism = b.mechanism) : a = b := by
  simp only [comparedInputsDiffer, ne_eq, decide_not, Bool.or_eq_false_iff, Bool.not_eq_false',
    decide_eq_true_eq] at h
  obtain ⟨⟨⟨⟨he, ht⟩, -⟩, ho⟩, hs⟩ := h
  cases a
  cases b
  simp_all

/-! ### The calls -/

/-- An update of an open profile that is stored and that `dialParametersChanged` does not see,
though it changes the kind or the mechanism. -/
def Unnoticed (s : Service) (env : Env) (id : Int) (input : ConnectionProfile) : Prop :=
  env.writeErr = none ∧ (s.edited id input).isSome ∧ s.clients.contains id ∧
    ∃ p, s.connections[id]? = some p ∧
      comparedInputsDiffer (dialParams p) (submitted p input) = false ∧
      ¬ ((submitted p input).kind = p.kind ∧ (submitted p input).mechanism = p.auth.mechanism)

/-- The settings are the fixed ones, and an update is not of the unnoticed kind. -/
def Noticed (settings : Option AppSettings) (s : Service) (c : Call) : Prop :=
  c.env.settings = settings ∧
    ∀ id input, c.op = .updateConnection id input → ¬ Unnoticed s c.env id input

theorem held_connectRuntimeLocked {s : Service} (hi : s.core.Inv) (h : s.core.Held settings)
    {env : Env} (henv : env.settings = settings) (id : Int) :
    (s.connectRuntimeLocked env id).1.core.Held settings := by
  rcases connectRuntimeLocked_cases s env id with ⟨hc, -⟩ | ⟨p, hp, -, hc⟩ <;> rw [hc]
  · exact h
  · exact h.opened henv (hi.key_eq_id hp)

theorem held_disconnect {s : Service} (h : s.core.Held settings) (env : Env) (id : Int) :
    (s.disconnect env id).1.core.Held settings := by
  rcases disconnect_cases s env id with hc | ⟨p, -, hc⟩ <;> rw [hc]
  · exact h
  · refine h.closed id _ fun a ha => ?_
    exact (getElem?_insert _ _ _ _).trans (if_neg (Ne.symm ha))

theorem held_testConnection {s : Service} (h : s.core.Held settings) (env : Env) (id : Int) :
    (s.testConnection env id).1.core.Held settings := by
  rcases testConnection_cases s env id with hc | ⟨p, hp, hc⟩ <;> rw [hc]
  · exact h
  · exact h.store_insert hp fun _ _ => ⟨rfl, rfl⟩

theorem held_restoreRuntimeLocked {s : Service} (hi : s.core.Inv) {env : Env}
    (henv : env.settings = settings) (plan : Bool) :
    (s.restoreRuntimeLocked env plan).1.core.Held settings := by
  rcases restoreRuntimeLocked_cases s env plan with hc | ⟨p, hp, -, hc⟩ <;> rw [hc]
  · exact s.core.held_hold_empty
  · exact s.core.held_hold_empty.opened henv (hi.key_eq_id hp)

theorem held_reload {s : Service} (hi : s.core.Inv) (h : s.core.Held settings) {env : Env}
    (henv : env.settings = settings) : (s.reload env).1.core.Held settings := by
  rcases reload_cases s env with hc | ⟨t, plan, ht | ⟨ps, ht⟩, hc⟩ <;> rw [hc]
  · exact h
  · exact held_restoreRuntimeLocked (ht ▸ hi) henv plan
  · exact held_restoreRuntimeLocked (ht ▸ s.core.inv_built ps) henv plan

theorem held_replaceConnections {s : Service} (h : s.core.Held settings) {env : Env}
    (henv : env.settings = settings) (ps : List (Option ConnectionProfile)) :
    (s.replaceConnections env ps).1.core.Held settings := by
  rcases replaceConnections_cases s env ps with hc | ⟨t, plan, prepared, -, ht, hc⟩ <;> rw [hc]
  · exact h
  · exact held_restoreRuntimeLocked (ht ▸ s.core.inv_built _) henv plan

/-- An edit keeps the clients fresh if it closes the client it makes stale. -/
theorem held_storeEdited {s : Service} (hi : s.core.Inv) (h : s.core.Held settings) {env : Env}
    (henv : env.settings = settings) {id : Int} {previous current : ConnectionProfile}
    {redial : Bool} (hp : s.connections[id]? = some previous) (hid : current.id = previous.id)
    (hkeep : env.writeErr = none → redial = false → ∀ d, s.clients[id]? = some d →
      current.status = previous.status ∧ dialParams current = dialParams previous) :
    (s.storeEdited env id previous current redial).1.core.Held settings := by
  have hclosed : ((s.core.store (s.connections.insert id current)).hold
      (s.clients.erase id)).Held settings :=
    h.closed id _ fun a ha => (getElem?_insert _ _ _ _).trans (if_neg (Ne.symm ha))
  rcases storeEdited_cases env current redial hp with ⟨-, hc⟩ | ⟨hw, hr, hc⟩ | ⟨-, hc⟩ | ⟨-, hc⟩ <;>
    rw [hc]
  · exact h
  · exact h.store_insert hp (hkeep hw hr)
  · exact hclosed
  · exact hclosed.opened henv (hid.trans (hi.key_eq_id hp))

/-- A profile that is not on line has no client. -/
theorem Core.Held.online {c : Core} (h : c.Held settings) {id : Int} {p d : ConnectionProfile}
    (hp : c.connections[id]? = some p) (hd : c.clients[id]? = some d) : p.status = statusOnline := by
  obtain ⟨q, hq, hs, -⟩ := h id d hd
  obtain rfl := Option.some.inj (hp.symm.trans hq)
  exact hs

theorem edited_status {s : Service} {id : Int} {input p q : ConnectionProfile}
    (hp : s.connections[id]? = some p) (h : s.edited id input = some q) :
    q.status = p.status ∧ q.id = p.id := by
  obtain ⟨name, endpoints, acl, -, -, rfl⟩ := edited_eq hp h
  refine ⟨?_, editProfile_id _ _ _ _ _⟩
  unfold editProfile applyCredentials ConnectionProfile.setACL
  dsimp only
  split <;> split <;> rfl

theorem held_updateConnection {s : Service} (hi : s.core.Inv) (h : s.core.Held settings)
    {env : Env} (henv : env.settings = settings) {id : Int} {input : ConnectionProfile}
    (hn : ¬ Unnoticed s env id input) : (s.updateConnection env id input).1.core.Held settings := by
  rcases updateConnection_cases s env id input with hc | ⟨p, q, hp, hq, hc⟩ <;> rw [hc]
  · exact h
  obtain ⟨hstat, hid⟩ := edited_status hp hq
  have hdial := dialParams_edited hp hq
  refine held_storeEdited hi h henv hp (by split <;> exact hid) ?_
  intro hw hredial d hd
  have hon := h.online hp hd
  cases hch : dialParametersChanged p q with
  | true =>
    rw [hch, hon] at hredial
    exact absurd hredial (by decide)
  | false =>
    rw [dialParametersChanged_eq, hdial] at hch
    have hfam : (submitted p input).kind = p.kind ∧
        (submitted p input).mechanism = p.auth.mechanism := by
      by_contra hf
      refine hn ⟨hw, by rw [hq]; rfl, ?_, p, hp, hch, hf⟩
      rw [Std.ExtTreeMap.contains_eq_isSome_getElem?, hd]
      rfl
    refine ⟨hstat, ?_⟩
    rw [if_neg (by decide), hdial]
    exact (dialParams_eq_of_not_differ hch hfam.1.symm hfam.2.symm).symm

theorem held_setOption {s : Service} (hi : s.core.Inv) (h : s.core.Held settings) {env : Env}
    (henv : env.settings = settings) (id : Int) (key value : String) :
    (s.setOption env id key value).1.core.Held settings := by
  rcases setOption_cases s env id key value with hc | ⟨p, options, hp, hc⟩ <;> rw [hc]
  · exact h
  · refine held_storeEdited hi h henv hp rfl fun _ hr d hd => ?_
    rw [h.online hp hd] at hr
    exact absurd hr (by decide)

theorem held_addConnection {s : Service} (hi : s.core.Inv) (h : s.core.Held settings) (env : Env)
    (input : ConnectionProfile) : (s.addConnection env input).1.core.Held settings := by
  have hfree : s.connections[s.nextID]? = none := hi.toIdInv.free le_rfl
  rcases addConnection_cases env input hfree with hc | ⟨p, -, hc⟩ <;> rw [hc]
  · exact h
  · intro a d hd
    obtain ⟨q, hq, hrest⟩ := h a d hd
    refine ⟨q, (getElem?_insert _ _ _ _).trans ((if_neg ?_).trans hq), hrest⟩
    rintro rfl
    rw [show s.core.connections = s.connections from rfl, hfree] at hq
    cases hq

theorem held_deleteConnection {s : Service} (h : s.core.Held settings) (env : Env) (id : Int) :
    (s.deleteConnection env id).1.core.Held settings := by
  rcases deleteConnection_cases s env id with hc | ⟨p, hp, -, hc⟩ <;> rw [hc]
  · exact h
  have herase : ∀ a : Int, a ≠ id → (s.connections.erase id)[a]? = s.connections[a]? :=
    fun a ha => (getElem?_erase _ _ _).trans (if_neg (Ne.symm ha))
  split
  · exact h.closed id _ herase
  · rename_i hoff
    intro a d hd
    obtain ⟨q, hq, hrest⟩ := h a d hd
    refine ⟨q, (herase a ?_).trans hq, hrest⟩
    rintro rfl
    exact hoff (h.online hp hd)

/-- Moving the default flag changes nothing a dial reads. -/
theorem held_setDefaultConnection {s : Service} (hi : s.core.Inv) (h : s.core.Held settings)
    (env : Env) (id : Int) : (s.setDefaultConnection env id).1.core.Held settings := by
  rcases setDefaultConnection_cases s env id with hc | ⟨p, hp, -, hc | hc⟩ <;> rw [hc]
  · exact h
  · intro a d hd
    obtain ⟨q, hq, hs, hdial⟩ := h a d hd
    refine ⟨{ q with isDefault := decide (id = a) }, ?_, hs,
      hdial.trans (dialParams_resolveForDial_congr rfl)⟩
    have hq' : s.connections[a]? = some q := hq
    simp only [Core.store, setDefaultFlag, getElem?_modify, getElem?_clearDefaults, hq']
    by_cases ha : id = a <;> simp [ha]
  · rw [restoredDefaults_eq (m := s.connections) hi hp]
    exact h

/-- **Every call keeps the clients fresh**, but for an unnoticed update. -/
theorem held_exec {s : Service} (hi : s.core.Inv) (h : s.core.Held settings) {c : Call}
    (hn : Noticed settings s c) : (exec s c).core.Held settings := by
  obtain ⟨op, env⟩ := c
  obtain ⟨henv, hn⟩ := hn
  cases op with
  | addConnection input => exact held_addConnection hi h env input
  | updateConnection id input => exact held_updateConnection hi h henv (hn id input rfl)
  | setOption id key value => exact held_setOption hi h henv id key value
  | deleteConnection id => exact held_deleteConnection h env id
  | setDefaultConnection id => exact held_setDefaultConnection hi h env id
  | connect id => exact held_connectRuntimeLocked hi h henv id
  | disconnect id => exact held_disconnect h env id
  | testConnection id => exact held_testConnection h env id
  | replaceConnections ps => exact held_replaceConnections h henv ps
  | reload => exact held_reload hi h henv

theorem Core.Held.noStaleClient {s : Service} (h : s.core.Held settings) :
    NoStaleClient settings s := by
  intro id d hd
  obtain ⟨p, hp, -, hdial⟩ := h id d hd
  exact ⟨p, hp, hdial⟩

/-- **A run without an unnoticed update has no stale client.** -/
theorem noStaleClient_run (settings : Option AppSettings) (endpoints : Option (MQKind → Bool))
    (file : Option String) (env : Env) (calls : List Call)
    (h : Lib.Transition.RunMeets exec (Noticed settings) (Service.new endpoints file env) calls) :
    NoStaleClient settings (Lib.Transition.run exec (Service.new endpoints file env) calls) := by
  have h0 : (Service.new endpoints file env).core.Held settings := by
    have hc : (Service.new endpoints file env).clients = ∅ := by
      unfold Service.new
      dsimp only
      split
      · rename_i t ht
        rcases loadConnectionsFromFile_cases ht with hc | ⟨ps, hc⟩
        · exact Service.clients_of_core (t := ⟨∅, 1, false, endpoints, file, ∅⟩) hc
        · exact congrArg Core.clients hc
      · rfl
    intro a d hd
    rw [show (Service.new endpoints file env).core.clients = ∅ from hc] at hd
    simp at hd
  have hrun := Lib.Transition.run_inv_of_meets exec
    (P := fun s => s.core.Inv ∧ s.core.Held settings)
    (fun s c hs hn => ⟨inv_exec hs.1 c, held_exec hs.1 hs.2 hn⟩) calls _ h
    ⟨inv_new endpoints file env, h0⟩
  exact hrun.2.noStaleClient

/-! ### The failing run -/

/-- Nothing fails, no settings are configured. -/
def calm : Env where
  settings := none
  sealValue _ plain := plain
  openValue _ sealed := .ok sealed
  readErr := none
  writeErr := none
  dialErr := none
  statusWriteErr := none
  now := "2026-01-01 00:00:00"

/-- A Kafka form: name, address, a user and a password. -/
def kafkaForm (mechanism : AuthMechanism) : ConnectionProfile :=
  { ConnectionProfile.zero with
    name := "orders"
    kind := kindKafka
    endpoints := "broker:9092"
    timeoutSec := 10
    auth := ⟨mechanism⟩
    options := some ∅
    secrets := (∅ : Lib.Json.StringMap).insert "username" "app" |>.insert "password" "secret" }

/-- Add a Kafka connection, open it, edit it to a mechanism and an address. -/
def editMechanism (mechanism : AuthMechanism) (endpoints : String) : List Call :=
  [⟨.addConnection (kafkaForm authSASLPlain), calm⟩, ⟨.connect 1, calm⟩,
    ⟨.updateConnection 1 { kafkaForm mechanism with endpoints := endpoints }, calm⟩]

/-- The mechanism of an open Kafka connection is edited, and its client is kept. -/
theorem staleClient_after_update :
    ¬ NoStaleClient none (Lib.Transition.run exec (Service.new none none calm)
      (editMechanism authSASLScram "broker:9092")) := by
  generalize hs : Lib.Transition.run exec (Service.new none none calm)
    (editMechanism authSASLScram "broker:9092") = s
  have hclient : (s.clients[(1 : Int)]?.map fun d => d.auth.mechanism.name) =
      some "sasl-plain" := by
    subst hs
    decide
  have hstored : (s.connections[(1 : Int)]?.map fun p =>
      (resolveForDial none p).auth.mechanism.name) = some "sasl-scram" := by
    subst hs
    decide
  intro h
  obtain ⟨d, hd, hdm⟩ := Option.map_eq_some_iff.mp hclient
  obtain ⟨p, hp, hdial⟩ := h 1 d hd
  rw [hp] at hstored
  have hpm : (resolveForDial none p).auth.mechanism.name = "sasl-scram" := Option.some.inj hstored
  have he := congrArg (fun x => x.mechanism.name) hdial
  simp only [dialParams] at he
  rw [hdm, hpm] at he
  exact absurd he (by decide)

/-- The same edit with another address is noticed, and the client is dialled anew. -/
theorem noStaleClient_after_redial :
    NoStaleClient none (Lib.Transition.run exec (Service.new none none calm)
      (editMechanism authSASLScram "broker:9093")) := by
  refine noStaleClient_run none none none calm _ ⟨⟨rfl, by rintro _ _ ⟨⟩⟩, ⟨rfl, by rintro _ _ ⟨⟩⟩,
    ⟨rfl, ?_⟩, trivial⟩
  rintro id input ⟨⟩ ⟨-, -, -, p, hp, hsame, -⟩
  have hstored : ((exec (exec (Service.new none none calm)
      ⟨.addConnection (kafkaForm authSASLPlain), calm⟩) ⟨.connect 1, calm⟩).connections[
        (1 : Int)]?.map (·.endpoints)) = some "broker:9092" := by decide
  rw [hp] at hstored
  have hpe : p.endpoints = "broker:9092" := Option.some.inj hstored
  have hne : (dialParams p).endpoints ≠
      (submitted p { kafkaForm authSASLScram with endpoints := "broker:9093" }).endpoints := by
    show p.endpoints ≠ trimSpace "broker:9093"
    rw [hpe]
    decide
  simp [comparedInputsDiffer, hne] at hsame

end MqStudio.Connection
