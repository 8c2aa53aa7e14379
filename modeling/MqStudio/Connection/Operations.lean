import MqStudio.Connection.State

/-!
# The operations of the connection service

`lifecycle.go`, `reload.go` and `mutation.go`, each call run to its end: what it
does to the service, what it returns, what it reports.  A call that fails after
it changed the state in memory puts the state back itself, and these rollbacks
are written out as the source has them.

`Call` collects the ten calls that change the state, `exec` runs one, and a run
of the service is `Lib.Transition.run exec`.
-/

namespace MqStudio.Connection

open Model Lib.Errors Lib.Text

/-! ### Resolving a profile for a dial -/

def defaultConnectionTimeout : Int64 := 5

def getConnectTimeout (settings : Option AppSettings) (connection : ConnectionProfile) : Duration :=
  if 0 < connection.timeoutSec then connection.timeoutSec * second
  else match settings with
    | some s => s.getConnectTimeout
    | none => defaultConnectionTimeout * second

def resolveACLCredentials (settings : Option AppSettings) (connection : ConnectionProfile) : ACL :=
  if connection.aclEnabled then
    ⟨true, connection.secret secretAccessKey, connection.secret secretSecretKey⟩
  else if connection.auth.mechanism ≠ ⟨""⟩ ∧ connection.auth.mechanism ≠ authNone then
    ⟨false, "", ""⟩
  else match settings with
    | some s =>
        let (accessKey, secretKey) := s.getGlobalACLCredentials
        if trimSpace accessKey ≠ "" ∧ trimSpace secretKey ≠ "" then ⟨true, accessKey, secretKey⟩
        else ⟨false, "", ""⟩
    | none => ⟨false, "", ""⟩

/-- Fills a profile's blanks from application settings. -/
def resolveForDial (settings : Option AppSettings) (connection : ConnectionProfile) :
    ConnectionProfile :=
  let resolved := { connection with timeoutSec := getConnectTimeout settings connection / second }
  let acl := resolveACLCredentials settings connection
  let resolved := resolved.setACL acl.enabled acl.accessKey acl.secretKey
  if !acl.enabled && connection.auth.mechanism ≠ ⟨""⟩ then
    resolved.withMechanism connection.auth.mechanism
  else resolved

/-! ### Opening and closing -/

/-- Activates one profile. -/
def Service.connectRuntimeLocked (s : Service) (env : Env) (id : Int) : Service × Option Error :=
  match s.connections[id]? with
  | none => (s, some (.new s!"连接不存在: {id}"))
  | some connection =>
    match env.dialErr with
    | some err => (s, some err)
    | none =>
      let resolved := resolveForDial env.settings connection
      let s := { s with
        clients := s.clients.insert resolved.id resolved
        connections := s.connections.insert id
          { connection with status := statusOnline, lastCheck := env.now } }
      match s.saveConnectionsLocked env env.statusWriteErr with
      | (s, none) => (s, none)
      | (s, some err) => (s, some (.wrap "连接成功，但保存连接状态失败" err))

def Service.connect (s : Service) (env : Env) (id : Int) : Service × Option Error :=
  s.connectRuntimeLocked env id

def Service.disconnect (s : Service) (env : Env) (id : Int) : Service × Option Error :=
  match s.connections[id]? with
  | none => (s, some (.new s!"连接不存在: {id}"))
  | some connection =>
    let s := { s with
      clients := s.clients.erase id
      connections := s.connections.insert id
        { connection with status := statusOffline, lastCheck := env.now } }
    s.saveConnectionsLocked env env.writeErr

/-- Dials a saved profile and closes it again. -/
def Service.testConnection (s : Service) (env : Env) (id : Int) :
    Service × String × Option Error :=
  match s.connections[id]? with
  | none => (s, "", some (.new s!"连接不存在: {id}"))
  | some connection =>
    let s := { s with
      connections := s.connections.insert id { connection with lastCheck := env.now } }
    match env.dialErr with
    | none => (s, "online", none)
    | some err => (s, "offline", some err)

/-! ### Reloading -/

/-- Whether runtime connectivity must be restored. -/
def Service.reloadPlanLocked (s : Service) : Bool :=
  s.reconnectReload || (copyConnectionsSorted s.connections).any fun p => p.status = statusOnline

/-- The id of the default profile, zero where there is none. -/
def defaultID (connections : Profiles) : Int :=
  match (copyConnectionsSorted connections).find? (·.isDefault) with
  | some p => p.id
  | none => 0

/-- Closes every client and opens the default profile again. -/
def Service.restoreRuntimeLocked (s : Service) (env : Env) (shouldReconnect : Bool) :
    Service × Option Error :=
  let s := { s with clients := ∅ }
  if shouldReconnect && defaultID s.connections ≠ 0 then
    match s.connectRuntimeLocked env (defaultID s.connections) with
    | (s, some err) => (s, some err)
    | (s, none) => ({ s with reconnectReload := false }, none)
  else ({ s with reconnectReload := false }, none)

def Service.reload (s : Service) (env : Env) : Service × Option Error :=
  let plan := s.reloadPlanLocked
  match s.loadConnectionsFromFile env with
  | .error err => (s, some err)
  | .ok s => { s with reconnectReload := plan }.restoreRuntimeLocked env plan

/-- Validates and atomically replaces all profiles. -/
def Service.replaceConnections (s : Service) (env : Env)
    (connections : List (Option ConnectionProfile)) : Service × Option Error :=
  match s.prepareReplacement connections with
  | .error err => (s, some err)
  | .ok prepared =>
    let plan := s.reloadPlanLocked
    match s.writeFile (encodeConnectionsForDisk env prepared) env.writeErr with
    | (s, some err) => (s, some err)
    | (s, none) =>
      let (loaded, nextID) := buildConnectionState (prepared.map some)
      { s with connections := loaded, nextID := nextID, reconnectReload := plan }
        |>.restoreRuntimeLocked env plan

/-! ### Editing profiles -/

/-- Replaces the stored credentials with what the form collected. -/
def applyCredentials (connection input : ConnectionProfile) (acl : ACL) : ConnectionProfile :=
  let secrets := input.secrets.foldl (fun m key value =>
    if key = secretAccessKey ∨ key = secretSecretKey then m else setSecretIn m key value) ∅
  let connection :=
    { connection with secrets := secrets }.setACL acl.enabled acl.accessKey acl.secretKey
  -- A family with a mechanism of its own keeps the one it declared.
  if !acl.enabled && input.auth.mechanism ≠ ⟨""⟩ then
    connection.withMechanism input.auth.mechanism
  else connection

/-- Options as a map: a nil one holds nothing. -/
def optionsMap (p : ConnectionProfile) : Lib.Json.StringMap := p.options.getD ∅

/-- Whether an open client is now dialled with something the stored profile no longer says. -/
def dialParametersChanged (previous current : ConnectionProfile) : Bool :=
  previous.endpoints ≠ current.endpoints ||
    previous.timeoutSec ≠ current.timeoutSec ||
    previous.aclEnabled ≠ current.aclEnabled ||
    optionsMap previous ≠ optionsMap current ||
    previous.secrets ≠ current.secrets

/-- The kind a new profile is stored under. -/
def newKind (kind : MQKind) : MQKind := if kind = ⟨""⟩ then kindRocketMQ else kind

def Service.addConnection (s : Service) (env : Env) (input : ConnectionProfile) :
    Service × Option ConnectionProfile × Option Error :=
  let kind := newKind input.kind
  match s.validateConnectionFields kind input.name input.endpoints input.timeoutSec with
  | .error err => (s, none, some err)
  | .ok (name, endpoints) =>
    match aclConfig input with
    | .error err => (s, none, some err)
    | .ok acl =>
      let connection : ConnectionProfile := {
        id := s.nextID
        name := name
        group := normalizeConnectionGroup input.group
        endpoints := endpoints
        timeoutSec := input.timeoutSec
        kind := kind
        auth := ⟨⟨""⟩⟩
        options := input.options
        secrets := ∅
        status := statusOffline
        lastCheck := "-"
        isDefault := s.connections.isEmpty
        remark := input.remark }
      let connection := applyCredentials connection input acl
      let s := { s with connections := s.connections.insert connection.id connection }
      match s.saveConnectionsLocked env env.writeErr with
      | (s, some err) =>
          ({ s with connections := s.connections.erase connection.id }, none,
            some (.wrap "failed to save connection config" err))
      | (s, none) => ({ s with nextID := s.nextID + 1 }, some connection, none)

/-- The family a submission will be stored under. -/
def Service.editedKind (s : Service) (id : Int) (submitted : MQKind) : MQKind :=
  if submitted ≠ ⟨""⟩ then submitted
  else match s.connections[id]? with
    | some stored => stored.kind
    | none => kindRocketMQ

/-- The stored profile with the submitted fields written over it. -/
def editProfile (connection input : ConnectionProfile) (name endpoints : String) (acl : ACL) :
    ConnectionProfile :=
  let connection := { connection with
    name := name
    group := normalizeConnectionGroup input.group
    endpoints := endpoints
    kind := if input.kind ≠ ⟨""⟩ then input.kind else connection.kind
    options := if input.options.isSome then input.options else connection.options
    timeoutSec := input.timeoutSec }
  { applyCredentials connection input acl with remark := input.remark }

/-- The tail of an edit: save, put the profile back where that fails, redial where the client
is stale and was open. -/
def Service.storeEdited (s : Service) (env : Env) (id : Int) (previous current : ConnectionProfile)
    (redial : Bool) : Service × Option ConnectionProfile × Option Error :=
  let s := { s with connections := s.connections.insert id current }
  match s.saveConnectionsLocked env env.writeErr with
  | (s, some err) =>
      ({ s with connections := s.connections.insert id previous }, none,
        some (.wrap "failed to save connection config" err))
  | (s, none) =>
    if redial then
      match { s with clients := s.clients.erase id }.connectRuntimeLocked env id with
      | (s, some err) =>
          (s, some current,
            some (.wrap "connection config saved, but reconnect with new config failed" err))
      | (s, none) => (s, s.connections[id]?, none)
    else (s, some current, none)

def Service.updateConnection (s : Service) (env : Env) (id : Int) (input : ConnectionProfile) :
    Service × Option ConnectionProfile × Option Error :=
  match s.validateConnectionFields (s.editedKind id input.kind) input.name input.endpoints
      input.timeoutSec with
  | .error err => (s, none, some err)
  | .ok (name, endpoints) =>
    match s.connections[id]? with
    | none => (s, none, some (.new s!"connection not found: {id}"))
    | some previous =>
      match aclConfig input with
      | .error err => (s, none, some err)
      | .ok acl =>
        let edited := editProfile previous input name endpoints acl
        let changed := dialParametersChanged previous edited
        let edited := if changed then { edited with status := statusOffline } else edited
        s.storeEdited env id previous edited (changed && previous.status = statusOnline)

/-- Replaces one stored option and redials a connection the change invalidates. -/
def Service.setOption (s : Service) (env : Env) (id : Int) (key value : String) :
    Service × Option ConnectionProfile × Option Error :=
  let key := trimSpace key
  if key = "" then (s, none, some (.new "option key is required"))
  else
    match s.connections[id]? with
    | none => (s, none, some (.new s!"connection not found: {id}"))
    | some previous =>
      let options := previous.options.getD ∅
      let options := if value = "" then options.erase key else options.insert key value
      if optionsMap previous = options then (s, some previous, none)
      else
        s.storeEdited env id previous
          { previous with options := some options, status := statusOffline }
          (previous.status = statusOnline)

def Service.deleteConnection (s : Service) (env : Env) (id : Int) : Service × Option Error :=
  match s.connections[id]? with
  | none => (s, some (.new s!"connection not found: {id}"))
  | some deleted =>
    if deleted.isDefault && 1 < s.connections.size then
      (s, some (.new "cannot delete the default connection; set another connection as default first"))
    else
      let remaining := s.connections.erase id
      let newDefaultID :=
        if deleted.isDefault then (sortedConnectionIDs remaining).headD 0 else 0
      let remaining :=
        if newDefaultID ≠ 0 then setDefaultFlag remaining newDefaultID true else remaining
      match { s with connections := remaining }.saveConnectionsLocked env env.writeErr with
      | (s, some err) =>
          let restored := s.connections.insert id deleted
          let restored :=
            if newDefaultID ≠ 0 then setDefaultFlag restored newDefaultID false else restored
          ({ s with connections := restored }, some (.wrap "failed to save connection config" err))
      | (s, none) =>
          if deleted.status = statusOnline then ({ s with clients := s.clients.erase id }, none)
          else (s, none)

/-- Every default flag taken away. -/
def clearDefaults (connections : Profiles) : Profiles :=
  connections.map fun _ p => { p with isDefault := false }

def Service.setDefaultConnection (s : Service) (env : Env) (id : Int) : Service × Option Error :=
  match s.connections[id]? with
  | none => (s, some (.new s!"connection not found: {id}"))
  | some connection =>
    if connection.isDefault then (s, none)
    else
      let previousDefaultID := defaultID s.connections
      let chosen := setDefaultFlag (clearDefaults s.connections) id true
      match { s with connections := chosen }.saveConnectionsLocked env env.writeErr with
      | (s, some err) =>
          let restored := setDefaultFlag s.connections id false
          let restored :=
            if previousDefaultID ≠ 0 then setDefaultFlag restored previousDefaultID true
            else restored
          ({ s with connections := restored }, some (.wrap "保存连接配置失败" err))
      | (s, none) => (s, none)

/-! ### Calls and runs -/

/-- `New`, on a data file that may not load. -/
def Service.new (endpoints : Option (MQKind → Bool)) (file : Option String) (env : Env) : Service :=
  let s : Service := ⟨∅, 1, false, endpoints, file, ∅⟩
  match s.loadConnectionsFromFile env with
  | .ok s => s
  | .error _ => s

/-- A call on the service. -/
inductive Operation where
  | addConnection (input : ConnectionProfile)
  | updateConnection (id : Int) (input : ConnectionProfile)
  | setOption (id : Int) (key value : String)
  | deleteConnection (id : Int)
  | setDefaultConnection (id : Int)
  | connect (id : Int)
  | disconnect (id : Int)
  | testConnection (id : Int)
  | replaceConnections (connections : List (Option ConnectionProfile))
  | reload

/-- A call and what it meets outside. -/
structure Call where
  op : Operation
  env : Env

/-- The service after a call. -/
def exec (s : Service) (c : Call) : Service :=
  match c.op with
  | .addConnection input => (s.addConnection c.env input).1
  | .updateConnection id input => (s.updateConnection c.env id input).1
  | .setOption id key value => (s.setOption c.env id key value).1
  | .deleteConnection id => (s.deleteConnection c.env id).1
  | .setDefaultConnection id => (s.setDefaultConnection c.env id).1
  | .connect id => (s.connect c.env id).1
  | .disconnect id => (s.disconnect c.env id).1
  | .testConnection id => (s.testConnection c.env id).1
  | .replaceConnections connections => (s.replaceConnections c.env connections).1
  | .reload => (s.reload c.env).1

end MqStudio.Connection
