import MqStudio.Connection.Disk
import MqStudio.Settings.Service

/-!
# The configuration service

`service/configuration`: settings and connections exported as one text, imported from one, and put
back where an import fails half way.  It is the one caller that replaces the connections or reads
their file again.

* `exportAllConfig`, `importAllConfig`, `rollback`: the three of them.
* `connections_exec`: what a call does to the connections, as calls on their service.
* `inStep_exec`: both files agree with the memory after every call.
-/

namespace MqStudio.Configuration

open Model Lib.Json Lib.Errors Lib.Transition
open Connection (Profiles copyConnectionsSorted)

/-! ### The exported shape -/
def currentExportVersion : Int64 := 2

/-- Records rather than profiles: a profile's own JSON has no secrets. -/
structure ConnectionStore where
  connections : Option (List (Option ConnectionRecord))

def connectionStoreMembers : List (Member ConnectionStore) :=
  [.of "connections" Connection.encodeRecords Connection.decodeRecords (·.connections) fun s x =>
     { s with connections := x }]

structure ExportPayload where
  version : Int64
  containsSecrets : Bool
  exportedAt : String
  settings : AppSettings
  connections : ConnectionStore

def exportMembers : List (Member ExportPayload) :=
  [.of "version" (ofInt ·.toInt) decodeInt64 (·.version) fun p x => { p with version := x },
   .of "containsSecrets" .bool decodeBool (·.containsSecrets) fun p x =>
     { p with containsSecrets := x },
   .of "exportedAt" .string decodeString (·.exportedAt) fun p x => { p with exportedAt := x },
   .of "settings" encodeSettings decodeSettings (·.settings) fun p x => { p with settings := x },
   .of "connections" (encodeStruct connectionStoreMembers) (decodeStruct connectionStoreMembers)
     (·.connections) fun p x => { p with connections := x }]

structure ImportPayload where
  version : Int64
  settings : Option AppSettings
  /-- A `json.RawMessage`: whatever stands there, none where nothing does. -/
  connections : Option Value

def importMembers : List (Member ImportPayload) :=
  [.of "version" (ofInt ·.toInt) decodeInt64 (·.version) fun p x => { p with version := x },
   .of "settings" (fun s => s.elim .null encodeSettings) (decodePointer .zero decodeSettings)
     (·.settings) fun p x => { p with settings := x },
   .of "connections" (·.getD .null) (fun _ v => (some v, true)) (·.connections) fun p x =>
     { p with connections := x }]

/-! ### Records that are read -/

/-- The credentials of an older export, which are encrypted. -/
def decryptRecord (env : Connection.Env) :
    Option ConnectionRecord → Except Error (Option ConnectionRecord)
  | none => .ok none
  | some record => do
    let record ← record.secrets.toList.foldlM (fun (record : ConnectionRecord) e =>
      match Connection.decrypt env e.2 e.1 with
      | .error err =>
          .error (.wrapQuoted "解密连接" record.connectionProfile.name s!" 的 {e.1} 失败" err)
      | .ok plain => .ok { record with secrets := setSecretIn record.secrets e.1 plain }) record
    .ok (some record)

/-- The records of a store, or of a bare list as older exports have it. -/
def recordsOf (data : Value) : Except Error (List (Option ConnectionRecord)) :=
  let store := decodeStruct connectionStoreMembers ⟨none⟩ data
  if store.2 then .ok (store.1.connections.getD [])
  else
    let list := Connection.decodeRecords none data
    if list.2 then .ok (list.1.getD []) else .error .json

def decodeConnectionStore (env : Connection.Env) (data : Value) (decryptCredentials : Bool) :
    Except Error (List (Option ConnectionRecord)) :=
  match recordsOf data with
  | .error err => .error err
  | .ok records =>
    -- The older field names are folded in before anything reads a credential.
    let records := records.map (·.map fun record => newConnectionRecord record.profile)
    if decryptCredentials then records.mapM (decryptRecord env) else .ok records

/-! ### The service -/

structure Service where
  settings : SettingsService.Service
  /-- None in a service built without connections. -/
  connections : Option Connection.Service

/-- What one call meets outside: its writes of the settings and its work on the connections, each
as it applies and as it rolls back. -/
structure Env where
  exportedAt : String
  settings : Connection.Env
  settingsRollback : Connection.Env
  apply : Connection.Env
  rollback : Connection.Env

/-- The connection service reads the settings of this one. -/
def under (env : Connection.Env) (settings : AppSettings) : Connection.Env :=
  { env with settings := some settings }

def credentialsChanged (previous next : AppSettings) : Bool :=
  previous.globalAccessKey ≠ next.globalAccessKey ||
    previous.globalSecretKey ≠ next.globalSecretKey

def getConnections (connections : Option Connection.Service) : List ConnectionProfile :=
  match connections with
  | none => []
  | some connections => copyConnectionsSorted connections.connections

/-- A call on the connection service, where there is one. -/
def onConnections (connections : Option Connection.Service)
    (call : Connection.Service → Connection.Service × Option Error) :
    Option Connection.Service × Option Error :=
  match connections with
  | none => (none, none)
  | some c => (some (call c).1, (call c).2)

/-- The refresh of the connections once new settings are stored. -/
def Service.refresh (s : Service) (env : Env) (previous : AppSettings) (context : String) :
    Service × Option Error :=
  if credentialsChanged previous s.settings.settings then
    let r := onConnections s.connections (·.reload (under env.apply s.settings.settings))
    ({ s with connections := r.1 }, r.2.map (.wrap context))
  else (s, none)

/-- What both ways of storing settings do once the settings service has answered. -/
def Service.storeSettings (s : Service) (env : Env)
    (stored : SettingsService.Service × Except Error AppSettings) (context : String) :
    Service × Option Error :=
  match stored with
  | (settings, .error err) => ({ s with settings := settings }, some err)
  | (settings, .ok _) => { s with settings := settings }.refresh env s.settings.settings context

def Service.updateSettings (s : Service) (env : Env) (next : AppSettings) :
    Service × Option Error :=
  s.storeSettings env (s.settings.updateSettings env.settings next)
    "设置已保存，但刷新连接失败"

def Service.resetSettings (s : Service) (env : Env) : Service × Option Error :=
  s.storeSettings env (s.settings.resetSettings env.settings) "设置已重置，但刷新连接失败"

/-! ### Exporting -/

def Service.exportPayload (s : Service) (env : Env) : ExportPayload :=
  let records := (getConnections s.connections).map newConnectionRecord
  let settings := s.settings.settings
  { version := 2
    containsSecrets := (settings.globalAccessKey ≠ "" || settings.globalSecretKey ≠ "") ||
      records.any fun record => !record.secrets.isEmpty
    exportedAt := env.exportedAt
    settings := settings
    connections := ⟨some (records.map some)⟩ }

def Service.exportAllConfig (s : Service) (env : Env) : String :=
  marshalIndent (encodeStruct exportMembers (s.exportPayload env))

/-! ### Importing -/

/-- The profiles that a payload brings; none where it brings no connections. -/
def Service.importedConnections (s : Service) (env : Env) (payload : ImportPayload) :
    Except Error (Option (List (Option ConnectionProfile))) :=
  match payload.connections with
  | none | some .null => .ok none
  | some data =>
    match decodeConnectionStore env.apply data (payload.version < currentExportVersion) with
    | .error err => .error (.wrap "解析连接配置失败" err)
    | .ok records =>
      let profiles := records.map (·.map ConnectionRecord.profile)
      match s.connections with
      | none => .error (.new "连接配置服务不可用")
      | some connections =>
        match connections.validateConnections profiles with
        | some err => .error (.wrap "准备连接配置失败" err)
        | none => .ok (some profiles)

/-- What a text brings, once it has passed every check that is made before anything changes. -/
structure Import where
  settings : Option AppSettings
  connections : Option (List (Option ConnectionProfile))

def Service.readImport (s : Service) (env : Env) (raw : String) : Except Error Import :=
  match Connection.unmarshal (decodeStruct importMembers) ⟨0, none, none⟩ raw with
  | .error err => .error (.wrap "解析导入数据失败" err)
  | .ok payload =>
    if currentExportVersion < payload.version then
      .error (.new s!"不支持的配置版本: {payload.version}")
    else if payload.settings.isNone && payload.connections.isNone then
      .error (.new "导入文件不包含设置或连接配置")
    else
      match s.importedConnections env payload with
      | .error err => .error err
      | .ok imported => .ok ⟨payload.settings, imported⟩

def Service.applyConnections (s : Service) (env : Env)
    (imported : Option (List (Option ConnectionProfile))) (credentialsChanged : Bool) :
    Service × Option Error :=
  match imported, s.connections with
  | some _, none => (s, some (.new "连接配置服务不可用"))
  | some profiles, some c =>
    let r := c.replaceConnections (under env.apply s.settings.settings) profiles
    ({ s with connections := some r.1 }, r.2)
  | none, some c =>
    if credentialsChanged then
      let r := c.reload (under env.apply s.settings.settings)
      ({ s with connections := some r.1 }, r.2)
    else (s, none)
  | none, none => (s, none)

/-- `errors.Join`, which drops what is nil. -/
def joinErrors : Option Error → Option Error → Option Error
  | some first, some second => some (.join first second)
  | some err, none => some err
  | none, other => other

def Service.rollback (s : Service) (env : Env) (settings : AppSettings)
    (profiles : List ConnectionProfile) (settingsChanged connectionsChanged : Bool) :
    Service × Option Error :=
  let updated :=
    if settingsChanged then s.settings.updateSettings env.settingsRollback settings
    else (s.settings, .ok s.settings.settings)
  let settingsErr : Option Error := match updated.2 with
    | .error err => some err
    | .ok _ => none
  let s := { s with settings := updated.1 }
  if connectionsChanged then
    let r := onConnections s.connections
      (·.replaceConnections (under env.rollback s.settings.settings) (profiles.map some))
    ({ s with connections := r.1 }, joinErrors settingsErr r.2)
  else (s, settingsErr)

/-- The settings of an import, stored. -/
def Service.importSettings (s : Service) (env : Env) (settings : Option AppSettings) :
    SettingsService.Service × Except Error AppSettings :=
  match settings with
  | none => (s.settings, .ok s.settings.settings)
  | some settings => s.settings.updateSettings env.settings settings

def Service.importConfig (s : Service) (env : Env) (brought : Import) : Service × Option Error :=
  match s.importSettings env brought.settings with
  | (settings, .error err) => ({ s with settings := settings }, some (.wrap "保存设置失败" err))
  | (settings, .ok updated) =>
    let changed := credentialsChanged s.settings.settings updated
    match { s with settings := settings }.applyConnections env brought.connections changed with
    | (t, none) => (t, none)
    | (t, some err) =>
      match t.rollback env s.settings.settings (getConnections s.connections)
          brought.settings.isSome (brought.connections.isSome || changed) with
      | (t, some rollbackErr) =>
          (t, some (.wrapBoth "热重载连接配置失败" err "；回滚也失败" rollbackErr))
      | (t, none) => (t, some (.wrap "热重载连接配置失败，已回滚" err))

def Service.importAllConfig (s : Service) (env : Env) (raw : String) : Service × Option Error :=
  match s.readImport env raw with
  | .error err => (s, some err)
  | .ok brought => s.importConfig env brought

/-! ### Calls and runs -/

/-- A call on the configuration service, or one that goes to the connections directly. -/
inductive Operation where
  | updateSettings (next : AppSettings)
  | resetSettings
  | importAllConfig (raw : String)
  | connection (op : Connection.Operation)

structure Call where
  op : Operation
  env : Env

def exec (s : Service) (c : Call) : Service :=
  match c.op with
  | .updateSettings next => (s.updateSettings c.env next).1
  | .resetSettings => (s.resetSettings c.env).1
  | .importAllConfig raw => (s.importAllConfig c.env raw).1
  | .connection op =>
      let call : Connection.Call := ⟨op, under c.env.apply s.settings.settings⟩
      { s with connections := s.connections.map (Connection.exec · call) }

/-! ### The calls that are made on the connections -/

def Service.refreshCalls (s : Service) (env : Env) (previous : AppSettings) :
    List Connection.Call :=
  if credentialsChanged previous s.settings.settings then
    [⟨.reload, under env.apply s.settings.settings⟩]
  else []

def Service.storeCalls (s : Service) (env : Env)
    (stored : SettingsService.Service × Except Error AppSettings) : List Connection.Call :=
  match stored with
  | (_, .error _) => []
  | (settings, .ok _) => { s with settings := settings }.refreshCalls env s.settings.settings

def Service.applyCalls (s : Service) (env : Env)
    (imported : Option (List (Option ConnectionProfile))) (credentialsChanged : Bool) :
    List Connection.Call :=
  match imported with
  | some profiles => [⟨.replaceConnections profiles, under env.apply s.settings.settings⟩]
  | none =>
    if credentialsChanged then [⟨.reload, under env.apply s.settings.settings⟩] else []

/-- The settings that are in force while connections are rolled back. -/
def Service.settingsBack (s : Service) (env : Env) (settings : AppSettings)
    (settingsChanged : Bool) : SettingsService.Service :=
  if settingsChanged then (s.settings.updateSettings env.settingsRollback settings).1
  else s.settings

def Service.rollbackCalls (s : Service) (env : Env) (settings : AppSettings)
    (profiles : List ConnectionProfile) (settingsChanged connectionsChanged : Bool) :
    List Connection.Call :=
  if connectionsChanged then
    [⟨.replaceConnections (profiles.map some),
      under env.rollback (s.settingsBack env settings settingsChanged).settings⟩]
  else []

def Service.importCalls (s : Service) (env : Env) (brought : Import) : List Connection.Call :=
  match s.importSettings env brought.settings with
  | (_, .error _) => []
  | (settings, .ok updated) =>
    let changed := credentialsChanged s.settings.settings updated
    let t := { s with settings := settings }
    t.applyCalls env brought.connections changed ++
      match t.applyConnections env brought.connections changed with
      | (_, none) => []
      | (t, some _) => t.rollbackCalls env s.settings.settings (getConnections s.connections)
          brought.settings.isSome (brought.connections.isSome || changed)

/-- What a call on the configuration service asks of the connection service. -/
def Service.calls (s : Service) (c : Call) : List Connection.Call :=
  match c.op with
  | .updateSettings next => s.storeCalls c.env (s.settings.updateSettings c.env.settings next)
  | .resetSettings => s.storeCalls c.env (s.settings.resetSettings c.env.settings)
  | .importAllConfig raw =>
    match s.readImport c.env raw with
    | .error _ => []
    | .ok brought => s.importCalls c.env brought
  | .connection op => [⟨op, under c.env.apply s.settings.settings⟩]

theorem connections_refresh (s : Service) (env : Env) (previous : AppSettings)
    (context : String) : (s.refresh env previous context).1.connections =
      s.connections.map (run Connection.exec · (s.refreshCalls env previous)) := by
  unfold Service.refresh Service.refreshCalls
  split
  · cases s.connections <;> rfl
  · cases s.connections <;> rfl

theorem connections_applyConnections (s : Service) (env : Env)
    (imported : Option (List (Option ConnectionProfile))) (changed : Bool) :
    (s.applyConnections env imported changed).1.connections =
      s.connections.map (run Connection.exec · (s.applyCalls env imported changed)) := by
  unfold Service.applyConnections Service.applyCalls
  cases hc : s.connections with
  | none => cases imported <;> exact hc
  | some c =>
    cases imported with
    | some profiles => rfl
    | none =>
      cases changed with
      | true => rfl
      | false => exact hc

theorem settings_applyConnections (s : Service) (env : Env)
    (imported : Option (List (Option ConnectionProfile))) (changed : Bool) :
    (s.applyConnections env imported changed).1.settings = s.settings := by
  unfold Service.applyConnections
  repeat' split
  all_goals rfl

theorem settings_rollback (s : Service) (env : Env) (settings : AppSettings)
    (profiles : List ConnectionProfile) (settingsChanged connectionsChanged : Bool) :
    (s.rollback env settings profiles settingsChanged connectionsChanged).1.settings =
      s.settingsBack env settings settingsChanged := by
  unfold Service.rollback Service.settingsBack
  cases settingsChanged <;> cases connectionsChanged <;> rfl

theorem connections_rollback (s : Service) (env : Env) (settings : AppSettings)
    (profiles : List ConnectionProfile) (settingsChanged connectionsChanged : Bool) :
    (s.rollback env settings profiles settingsChanged connectionsChanged).1.connections =
      s.connections.map (run Connection.exec ·
        (s.rollbackCalls env settings profiles settingsChanged connectionsChanged)) := by
  unfold Service.rollback Service.rollbackCalls Service.settingsBack
  cases hc : s.connections <;> cases settingsChanged <;> cases connectionsChanged <;>
    simp [onConnections, Connection.exec]

theorem connections_importConfig (s : Service) (env : Env) (brought : Import) :
    (s.importConfig env brought).1.connections =
      s.connections.map (run Connection.exec · (s.importCalls env brought)) := by
  unfold Service.importConfig Service.importCalls
  obtain ⟨settings, result⟩ := s.importSettings env brought.settings
  cases result with
  | error err => simp
  | ok updated =>
    dsimp only
    generalize credentialsChanged s.settings.settings updated = changed
    have happly := connections_applyConnections { s with settings := settings } env
      brought.connections changed
    generalize hr : Service.applyConnections { s with settings := settings } env
      brought.connections changed = r at happly
    obtain ⟨t, err⟩ := r
    have ht : t.connections = s.connections.map (run Connection.exec ·
        (Service.applyCalls { s with settings := settings } env brought.connections changed)) :=
      happly
    cases err with
    | none => simpa using ht
    | some err =>
      dsimp only
      have hback := connections_rollback t env s.settings.settings (getConnections s.connections)
        brought.settings.isSome (brought.connections.isSome || changed)
      generalize t.rollback env s.settings.settings (getConnections s.connections)
        brought.settings.isSome (brought.connections.isSome || changed) = b at hback
      obtain ⟨u, rollbackErr⟩ := b
      have hu : u.connections = s.connections.map (run Connection.exec ·
          (Service.applyCalls { s with settings := settings } env brought.connections changed ++
            t.rollbackCalls env s.settings.settings (getConnections s.connections)
              brought.settings.isSome (brought.connections.isSome || changed))) := by
        rw [hback, ht, Option.map_map]
        refine congrArg (Option.map · s.connections) (funext fun c => ?_)
        exact (run_append Connection.exec c _ _).symm
      cases rollbackErr <;> exact hu

theorem connections_storeSettings (s : Service) (env : Env)
    (stored : SettingsService.Service × Except Error AppSettings) (context : String) :
    (s.storeSettings env stored context).1.connections =
      s.connections.map (run Connection.exec · (s.storeCalls env stored)) := by
  obtain ⟨settings, result⟩ := stored
  cases result with
  | error err => simp [Service.storeSettings, Service.storeCalls]
  | ok updated => exact connections_refresh { s with settings := settings } env _ context

/-- **What a call does to the connections** are calls on their service. -/
theorem connections_exec (s : Service) (c : Call) :
    (exec s c).connections = s.connections.map (run Connection.exec · (s.calls c)) := by
  obtain ⟨op, env⟩ := c
  cases op with
  | updateSettings next => exact connections_storeSettings s env _ _
  | resetSettings => exact connections_storeSettings s env _ _
  | importAllConfig raw =>
    unfold exec Service.calls Service.importAllConfig
    dsimp only
    cases s.readImport env raw with
    | error err => simp
    | ok brought => exact connections_importConfig s env brought
  | connection op => rfl

/-! ### What holds after every call -/

variable {open_ : String → String → Except Error String}

/-- A call under one key, after each of whose calls on the connections the ids are in range, and
which does not itself go round the import. -/
structure Portable (open_ : String → String → Except Error String) (s : Service) (c : Call) :
    Prop where
  settings : Connection.Keyed open_ c.env.settings
  settingsRollback : Connection.Keyed open_ c.env.settingsRollback
  apply : Connection.Keyed open_ c.env.apply
  rollback : Connection.Keyed open_ c.env.rollback
  inRange : ∀ connections, s.connections = some connections → RunMeets Connection.exec
    (fun c call => Connection.InRange (Connection.exec c call).connections) connections (s.calls c)
  imported : ∀ profiles, c.op ≠ .connection (.replaceConnections profiles)

/-- Either part of the service is in step with its file. -/
structure InStep (open_ : String → String → Except Error String) (s : Service) : Prop where
  settings : SettingsService.InStep open_ s.settings
  connections : ∀ c, s.connections = some c → Connection.InStep open_ c
  inRange : ∀ c, s.connections = some c → Connection.InRange c.connections

/-- What is imported is of named families. -/
theorem named_readImport {s : Service} {env : Env} {raw : String} {brought : Import}
    {profiles : List (Option ConnectionProfile)} (h : s.readImport env raw = .ok brought)
    (hp : brought.connections = some profiles) (p : ConnectionProfile) (hmem : some p ∈ profiles) :
    Connection.Named p := by
  unfold Service.readImport at h
  split at h
  · cases h
  split at h
  · cases h
  split at h
  · cases h
  split at h
  · cases h
  rename_i imported himported
  obtain rfl := Except.ok.inj h
  obtain rfl : imported = some profiles := hp
  unfold Service.importedConnections at himported
  split at himported
  · cases himported
  · cases himported
  split at himported
  · cases himported
  dsimp only at himported
  split at himported
  · cases himported
  split at himported
  · cases himported
  · obtain rfl := Option.some.inj (Except.ok.inj himported)
    obtain ⟨record, -, hrecord⟩ := List.mem_map.mp hmem
    obtain ⟨r, -, rfl⟩ := Option.map_eq_some_iff.mp hrecord
    exact (Connection.profile_named r).1

theorem keyed_under {env : Connection.Env} (h : Connection.Keyed open_ env)
    (settings : AppSettings) : Connection.Keyed open_ (under env settings) := ⟨h.key, h.opens⟩

/-- The profiles that a rollback puts back are of named families. -/
theorem named_getConnections {s : Service} (h : InStep open_ s) (p : ConnectionProfile)
    (hp : some p ∈ (getConnections s.connections).map some) : Connection.Named p := by
  obtain ⟨q, hq, he⟩ := List.mem_map.mp hp
  obtain rfl := Option.some.inj he
  unfold getConnections at hq
  split at hq
  · cases hq
  · rename_i c hc
    obtain ⟨k, hk⟩ := Connection.copyConnectionsSorted_mem.mp hq
    exact (h.connections c hc).named k q hk

/-- Each call that is made on the connections is under the key, and replaces them by named ones. -/
theorem portable_calls {s : Service} (h : InStep open_ s) {c : Call} (hc : Portable open_ s c) :
    ∀ call ∈ s.calls c, Connection.Keyed open_ call.env ∧
      ∀ ps, call.op = .replaceConnections ps → ∀ p, some p ∈ ps → Connection.Named p := by
  obtain ⟨op, env⟩ := c
  have hreload : ∀ (settings : AppSettings) (call : Connection.Call),
      call = ⟨.reload, under env.apply settings⟩ → Connection.Keyed open_ call.env ∧
        ∀ ps, call.op = .replaceConnections ps → ∀ p, some p ∈ ps → Connection.Named p := by
    rintro settings call rfl
    exact ⟨keyed_under hc.apply settings, fun ps hps => by cases hps⟩
  have hstore : ∀ stored, ∀ call ∈ s.storeCalls env stored, Connection.Keyed open_ call.env ∧
      ∀ ps, call.op = .replaceConnections ps → ∀ p, some p ∈ ps → Connection.Named p := by
    rintro ⟨settings, result⟩ call hcall
    cases result with
    | error err => cases hcall
    | ok updated =>
      change call ∈ Service.refreshCalls _ env _ at hcall
      unfold Service.refreshCalls at hcall
      split at hcall
      · exact hreload _ call (List.mem_singleton.mp hcall)
      · cases hcall
  cases op with
  | updateSettings next => exact hstore _
  | resetSettings => exact hstore _
  | importAllConfig raw =>
    intro call hcall
    change call ∈ (match s.readImport env raw with
      | .error _ => []
      | .ok brought => s.importCalls env brought) at hcall
    cases hread : s.readImport env raw with
    | error err =>
      rw [hread] at hcall
      cases hcall
    | ok brought =>
      rw [hread] at hcall
      change call ∈ s.importCalls env brought at hcall
      unfold Service.importCalls at hcall
      split at hcall
      · cases hcall
      rename_i settings updated _
      dsimp only at hcall
      rcases List.mem_append.mp hcall with hcall | hcall
      · unfold Service.applyCalls at hcall
        split at hcall
        · rename_i profiles hprofiles
          obtain rfl := List.mem_singleton.mp hcall
          refine ⟨keyed_under hc.apply _, fun ps hps p hp => ?_⟩
          obtain rfl := Connection.Operation.replaceConnections.inj hps
          exact named_readImport hread hprofiles p hp
        · split at hcall
          · exact hreload _ call (List.mem_singleton.mp hcall)
          · cases hcall
      · split at hcall
        · cases hcall
        · unfold Service.rollbackCalls at hcall
          split at hcall
          · obtain rfl := List.mem_singleton.mp hcall
            refine ⟨keyed_under hc.rollback _, fun ps hps p hp => ?_⟩
            obtain rfl := Connection.Operation.replaceConnections.inj hps
            exact named_getConnections h p hp
          · cases hcall
  | connection op =>
    intro call hcall
    obtain rfl := List.mem_singleton.mp hcall
    refine ⟨keyed_under hc.apply _, fun ps hps => ?_⟩
    exact absurd (congrArg Operation.connection hps) (hc.imported ps)

theorem inStep_settings {s : Service} (h : SettingsService.InStep open_ s.settings) {c : Call}
    (hc : Portable open_ s c) : SettingsService.InStep open_ (exec s c).settings := by
  obtain ⟨op, env⟩ := c
  have hstore : ∀ (stored : SettingsService.Service × Except Error AppSettings) context,
      SettingsService.InStep open_ stored.1 →
        SettingsService.InStep open_ (s.storeSettings env stored context).1.settings := by
    rintro ⟨settings, result⟩ context hs
    cases result with
    | error err => exact hs
    | ok updated =>
      unfold Service.storeSettings Service.refresh
      dsimp only
      split <;> exact hs
  have hupdate : ∀ (settings : SettingsService.Service) (e : Connection.Env) next,
      SettingsService.InStep open_ settings → Connection.Keyed open_ e →
        SettingsService.InStep open_ (settings.updateSettings e next).1 :=
    fun settings e next hs he =>
      SettingsService.inStep_exec (c := ⟨.updateSettings next, e⟩) hs he
  cases op with
  | updateSettings next => exact hstore _ _ (hupdate _ _ _ h hc.settings)
  | resetSettings =>
    exact hstore _ _
      (SettingsService.inStep_exec (c := ⟨.resetSettings, env.settings⟩) h hc.settings)
  | connection op => exact h
  | importAllConfig raw =>
    change SettingsService.InStep open_ (s.importAllConfig env raw).1.settings
    unfold Service.importAllConfig
    cases s.readImport env raw with
    | error err => exact h
    | ok brought =>
      have hbrought : SettingsService.InStep open_ (s.importSettings env brought.settings).1 := by
        unfold Service.importSettings
        cases brought.settings with
        | none => exact h
        | some settings => exact hupdate _ _ _ h hc.settings
      dsimp only
      unfold Service.importConfig
      generalize s.importSettings env brought.settings = stored at hbrought
      obtain ⟨settings, result⟩ := stored
      cases result with
      | error err => exact hbrought
      | ok updated =>
        dsimp only
        generalize credentialsChanged s.settings.settings updated = changed
        have happly := settings_applyConnections { s with settings := settings } env
          brought.connections changed
        generalize Service.applyConnections { s with settings := settings } env
          brought.connections changed = r at happly
        obtain ⟨t, err⟩ := r
        have ht : SettingsService.InStep open_ t.settings := by
          have heq : t.settings = settings := happly
          rw [heq]
          exact hbrought
        cases err with
        | none => exact ht
        | some err =>
          dsimp only
          have hback := settings_rollback t env s.settings.settings (getConnections s.connections)
            brought.settings.isSome (brought.connections.isSome || changed)
          generalize t.rollback env s.settings.settings (getConnections s.connections)
            brought.settings.isSome (brought.connections.isSome || changed) = b at hback
          obtain ⟨u, rollbackErr⟩ := b
          have hu : SettingsService.InStep open_ u.settings := by
            have heq : u.settings = t.settingsBack env s.settings.settings
              brought.settings.isSome := hback
            rw [heq, Service.settingsBack]
            split
            · exact hupdate _ _ _ ht hc.settingsRollback
            · exact ht
          cases rollbackErr <;> exact hu

/-- **Both files agree with the memory** after every call. -/
theorem inStep_exec {s : Service} (h : InStep open_ s) {c : Call} (hc : Portable open_ s c) :
    InStep open_ (exec s c) := by
  suffices hall : ∀ d, (exec s c).connections = some d →
      Connection.InStep open_ d ∧ Connection.InRange d.connections from
    ⟨inStep_settings h.settings hc, fun d hd => (hall d hd).1, fun d hd => (hall d hd).2⟩
  intro d hd
  rw [connections_exec] at hd
  obtain ⟨connections, hconnections, rfl⟩ := Option.map_eq_some_iff.mp hd
  have hmeets : ∀ (calls : List Connection.Call) (d : Connection.Service),
      (∀ call ∈ calls, Connection.Keyed open_ call.env ∧
        ∀ ps, call.op = .replaceConnections ps → ∀ p, some p ∈ ps → Connection.Named p) →
      RunMeets Connection.exec
        (fun c call => Connection.InRange (Connection.exec c call).connections) d calls →
      RunMeets Connection.exec (Connection.Portable open_) d calls := by
    intro calls
    induction calls with
    | nil => exact fun _ _ _ => trivial
    | cons call calls ih =>
      intro d hall hrange
      obtain ⟨hkeyed, hnamed⟩ := hall call List.mem_cons_self
      exact ⟨⟨hkeyed, hrange.1, fun ps _ hps _ _ => hnamed ps hps⟩,
        ih _ (fun call hcall => hall call (List.mem_cons_of_mem _ hcall)) hrange.2⟩
  exact run_inv_of_meets Connection.exec
    (P := fun d => Connection.InStep open_ d ∧ Connection.InRange d.connections)
    (fun _ _ hs hcall => ⟨Connection.inStep_exec hs.1 hcall, hcall.inRange⟩) (s.calls c)
    connections (hmeets _ _ (portable_calls h hc) (hc.inRange connections hconnections))
    ⟨h.connections connections hconnections, h.inRange connections hconnections⟩

/-- Services that are started on files that can be read and loaded, with ids in range. -/
structure Started (open_ : String → String → Except Error String) (s : Service) : Prop where
  settings : ∃ (file : Option String) (env : Connection.Env), env.openValue = open_ ∧
    env.readErr = none ∧ s.settings = SettingsService.Service.new file env
  connections : ∀ c, s.connections = some c → ∃ (endpoints : Option (MQKind → Bool))
    (file : Option String) (env : Connection.Env), env.openValue = open_ ∧
    (Connection.fresh endpoints file).loadConnectionsFromFile env = .ok c ∧
    Connection.InRange c.connections

theorem Started.inStep {s : Service} (h : Started open_ s) : InStep open_ s := by
  refine ⟨?_, fun c hc => ?_, fun c hc => ?_⟩
  · obtain ⟨file, env, hk, hread, hs⟩ := h.settings
    rw [hs]
    exact SettingsService.inStep_new hk hread
  · obtain ⟨endpoints, file, env, hk, hload, -⟩ := h.connections c hc
    exact Connection.inStep_loaded hload hk
  · obtain ⟨-, -, -, -, -, hrange⟩ := h.connections c hc
    exact hrange

/-- The states of the runs whose calls are all under one key. -/
def Reached (open_ : String → String → Except Error String) (s : Service) : Prop :=
  ∃ (start : Service) (calls : List Call), Started open_ start ∧
    RunMeets exec (Portable open_) start calls ∧ s = run exec start calls

theorem Reached.inStep {s : Service} (h : Reached open_ s) : InStep open_ s := by
  obtain ⟨start, calls, hstart, hrun, rfl⟩ := h
  exact run_inv_of_meets exec (P := InStep open_) (fun _ _ hs hc => inStep_exec hs hc) calls start
    hrun hstart.inStep

/-- **A restart finds what was in memory**: in every state that is reached, services that are
started anew on the two files have the settings and, off line, the profiles of the memory. -/
theorem restart_reached {s : Service} (h : Reached open_ s) :
    (∀ env : Connection.Env, env.openValue = open_ → env.readErr = none →
      (SettingsService.Service.new s.settings.file env).settings = s.settings.settings) ∧
    ∀ c, s.connections = some c → Connection.Agrees open_ c :=
  ⟨h.inStep.settings.restart, fun c hc => (h.inStep.connections c hc).agrees⟩

end MqStudio.Configuration
