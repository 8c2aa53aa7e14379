import MqStudio.Connection.Rebuild
import MqStudio.Lib.Json.Raw

/-!
# The settings service

`service/settings`: the preferences in memory and the file they are saved in, which an older build
may have written.  A call meets the same things outside as one on the connection service.

* `loaded_saved`: settings that were saved are loaded again.
* `restart_run`: after every run a service that is started anew has the settings of the memory.
-/

namespace MqStudio.SettingsService

open Model Lib.Json Lib.Errors
open MqStudio.Connection (Env Keyed encrypt decrypt)

/-! ### Files of older builds -/

def uiScaleAuto : String := "auto"

/-- The sizes of the first builds. -/
def tShirtScale (size : String) : Option String :=
  if size = "small" then some "12"
  else if size = "medium" then some "14"
  else if size = "large" then some "16"
  else none

/-- The step of the ladder that a legacy size is folded into. -/
def legacyScale (fontSize : Value) : String :=
  let tShirt := decodeString "" fontSize
  let pixels := decodeInt64 0 fontSize
  if tShirt.2 then (tShirtScale tShirt.1).getD uiScaleAuto
  else if pixels.2 then
    let step := toString pixels.1.toInt
    if validUIScale step then step else uiScaleAuto
  else uiScaleAuto

def migrateLegacyFontSize (raw : RawMap) : RawMap :=
  match raw["fontSize"]? with
  | none => raw
  | some fontSize =>
    let raw := raw.erase "fontSize"
    if raw.contains "uiScale" then raw else raw.insert "uiScale" (.string (legacyScale fontSize))

def policyNotify : String := "notify"
def policyOff : String := "off"

/-- The policy that the boolean of earlier builds is folded into. -/
def legacyPolicy (autoCheck : Value) : String :=
  let enabled := decodeBool false autoCheck
  if enabled.2 && !enabled.1 then policyOff else policyNotify

def migrateLegacyAutoCheckUpdate (raw : RawMap) : RawMap :=
  match raw["autoCheckUpdate"]? with
  | none => raw
  | some autoCheck =>
    let raw := raw.erase "autoCheckUpdate"
    if raw.contains "updatePolicy" then raw
    else raw.insert "updatePolicy" (.string (legacyPolicy autoCheck))

/-! ### The service -/

structure Service where
  settings : AppSettings
  /-- The content of the data file, none where it does not exist. -/
  file : Option String

/-- The settings of a file, still encrypted; a part of the wrong type is left at its default. -/
def decodeFile (raw : Option RawMap) : AppSettings :=
  let raw := raw.map fun raw => migrateLegacyAutoCheckUpdate (migrateLegacyFontSize raw)
  (decodeSettings defaultSettings (ofRaw raw)).1

/-- The credentials decrypted, and what is left checked. -/
def openSettings (env : Env) (loaded : AppSettings) : Except Error AppSettings :=
  match decrypt env loaded.globalAccessKey "globalAccessKey" with
  | .error err => .error (.wrap "failed to decrypt global AccessKey" err)
  | .ok accessKey =>
    match decrypt env loaded.globalSecretKey "globalSecretKey" with
    | .error err => .error (.wrap "failed to decrypt global SecretKey" err)
    | .ok secretKey =>
      .ok (normalize { loaded with globalAccessKey := accessKey, globalSecretKey := secretKey })

def Service.loadFromFile (s : Service) (env : Env) : Service × Option Error :=
  match env.readErr, s.file with
  | some err, _ => (s, some err)
  | none, none => (s, none)
  | none, some data =>
    -- A text that is no object is reported in the log alone.
    match (parse data).bind readRaw with
    | none => (s, none)
    | some raw =>
      match openSettings env (decodeFile raw) with
      | .error err => (s, some err)
      | .ok settings => ({ s with settings := settings }, none)

/-- `New`: a file that does not load leaves the defaults. -/
def Service.new (file : Option String) (env : Env) : Service :=
  ((⟨defaultSettings, file⟩ : Service).loadFromFile env).1

def marshalForDisk (env : Env) (settings : AppSettings) : String :=
  marshalIndent <| encodeSettings { settings with
    globalAccessKey := encrypt env settings.globalAccessKey "globalAccessKey"
    globalSecretKey := encrypt env settings.globalSecretKey "globalSecretKey" }

/-- Stores settings, and puts the previous ones back where the file cannot be written. -/
def Service.store (s : Service) (env : Env) (settings : AppSettings) :
    Service × Except Error AppSettings :=
  match env.writeErr with
  | some err => (s, .error err)
  | none => ({ settings := settings, file := some (marshalForDisk env settings) }, .ok settings)

def Service.updateSettings (s : Service) (env : Env) (settings : AppSettings) :
    Service × Except Error AppSettings :=
  s.store env (normalize settings)

def Service.resetSettings (s : Service) (env : Env) : Service × Except Error AppSettings :=
  s.store env defaultSettings

/-! ### What is saved is loaded -/

/-- The members of the settings in the order of their names. -/
def sortedMembers : List (Member AppSettings) :=
  [5, 17, 7, 8, 14, 13, 19, 10, 11, 12, 1, 18, 4, 9, 0, 16, 15, 3, 2, 6].filterMap
    (settingsMembers[·]?)

theorem sortedMembers_perm : sortedMembers.Perm settingsMembers := by
  have horder : [5, 17, 7, 8, 14, 13, 19, 10, 11, 12, 1, 18, 4, 9, 0, 16, 15, 3, 2, 6].Perm
      (List.range 20) := by decide
  exact horder.filterMap (settingsMembers[·]?)

theorem sortedMembers_sorted :
    sortedMembers.Pairwise fun f g => compare f.name g.name = .lt := by
  have hnames : (sortedMembers.map (·.name)).Pairwise fun a b => compare a b = .lt := by decide
  exact List.pairwise_map.mp hnames

/-- Settings read back from members in any order. -/
theorem decodeSettings_sortedMembers (old s : AppSettings) :
    decodeSettings old (encodeStruct sortedMembers s) = (s, true) := by
  rw [decodeSettings, decodeStruct_members (by decide) fun f hf => sortedMembers_perm.subset hf]
  simp [sortedMembers, settingsMembers, decodeAll, Member.reread, Member.of, decodeString,
    decodeBool]

/-- No setting has the name of a legacy one. -/
theorem getElem?_legacy {m : RawMap} {s : AppSettings} {key : String}
    (hm : ofRaw (some m) = encodeStruct sortedMembers s)
    (hkey : key ∉ sortedMembers.map (·.name)) : m[key]? = none := by
  have hlist : m.toList = sortedMembers.filterMap (Member.written s) := Value.object.inj hm
  cases hv : m[key]? with
  | none => rfl
  | some v =>
    have hmem := Std.ExtTreeMap.mem_toList_iff_getElem?_eq_some.mpr hv
    rw [hlist] at hmem
    obtain ⟨f, hf, hw⟩ := List.mem_filterMap.mp hmem
    exact absurd (List.mem_map.mpr ⟨f, hf, (name_of_written hw).symm⟩) hkey

theorem migrate_saved {m : RawMap} {s : AppSettings}
    (hm : ofRaw (some m) = encodeStruct sortedMembers s) :
    migrateLegacyAutoCheckUpdate (migrateLegacyFontSize m) = m := by
  have hsize : migrateLegacyFontSize m = m := by
    rw [migrateLegacyFontSize, getElem?_legacy hm (by decide)]
  rw [hsize, migrateLegacyAutoCheckUpdate, getElem?_legacy hm (by decide)]

/-- Settings that are written to a file are found in it. -/
theorem decodeFile_encodeSettings (s : AppSettings) :
    ((parse (marshalIndent (encodeSettings s))).bind readRaw).map decodeFile = some s := by
  rw [parse_marshalIndent, Option.bind_some]
  have hnodup : (settingsMembers.map Member.name).Nodup := by decide
  have hraw := ofRaw_readRaw_encodeStruct hnodup sortedMembers_perm sortedMembers_sorted s
  cases hread : readRaw (encodeStruct settingsMembers s) with
  | none =>
    rw [hread] at hraw
    cases hraw
  | some raw =>
    rw [hread] at hraw
    have hof : ofRaw raw = encodeStruct sortedMembers s := Option.some.inj hraw
    rw [encodeSettings, hread, Option.map_some]
    cases raw with
    | none => cases hof
    | some m =>
      have hdecoded : decodeFile (some m) = s := by
        rw [decodeFile, Option.map_some, migrate_saved hof, hof, decodeSettings_sortedMembers]
      rw [hdecoded]

variable {open_ : String → String → Except Error String}

theorem decrypt_encrypt_any {env env' : Env} (h : Keyed open_ env) (h' : env'.openValue = open_)
    (plain field : String) : decrypt env' (encrypt env plain field) field = .ok plain := by
  by_cases hp : plain = ""
  · subst hp
    rfl
  · exact Connection.decrypt_encrypt h h' hp field

/-- **Settings that were saved are loaded again** under the same key. -/
theorem loaded_saved {env env' : Env} (h : Keyed open_ env) (h' : env'.openValue = open_)
    (hread : env'.readErr = none) {s : AppSettings} (hs : normalize s = s) :
    (Service.new (some (marshalForDisk env s)) env').settings = s := by
  set sealed_ : AppSettings := { s with
    globalAccessKey := encrypt env s.globalAccessKey "globalAccessKey"
    globalSecretKey := encrypt env s.globalSecretKey "globalSecretKey" } with hsealed
  have hfile := decodeFile_encodeSettings sealed_
  cases hraw : (parse (marshalForDisk env s)).bind readRaw with
  | none =>
    rw [marshalForDisk, ← hsealed] at hraw
    rw [hraw] at hfile
    cases hfile
  | some raw =>
    have hdecoded : decodeFile raw = sealed_ := by
      rw [marshalForDisk, ← hsealed] at hraw
      rw [hraw] at hfile
      exact Option.some.inj hfile
    have hopen : openSettings env' sealed_ = .ok s := by
      rw [openSettings, hsealed]
      simp only [decrypt_encrypt_any h h']
      exact congrArg Except.ok hs
    rw [Service.new, Service.loadFromFile]
    simp only [hread, hraw, hdecoded, hopen]

/-! ### Runs -/

inductive Operation where
  | updateSettings (settings : AppSettings)
  | resetSettings

/-- A call and what it meets outside. -/
structure Call where
  op : Operation
  env : Env

def exec (s : Service) (c : Call) : Service :=
  match c.op with
  | .updateSettings settings => (s.updateSettings c.env settings).1
  | .resetSettings => (s.resetSettings c.env).1

/-- The memory holds normal settings, and those of the file. -/
structure InStep (open_ : String → String → Except Error String) (s : Service) : Prop where
  normal : normalize s.settings = s.settings
  restart : ∀ env : Env, env.openValue = open_ → env.readErr = none →
    (Service.new s.file env).settings = s.settings

theorem inStep_store {s : Service} (h : InStep open_ s) {env : Env} (hk : Keyed open_ env)
    {settings : AppSettings} (hn : normalize settings = settings) :
    InStep open_ (s.store env settings).1 := by
  unfold Service.store
  cases env.writeErr with
  | some err => exact h
  | none => exact ⟨hn, fun env' h' hread => loaded_saved hk h' hread hn⟩

theorem inStep_exec {s : Service} (h : InStep open_ s) {c : Call} (hk : Keyed open_ c.env) :
    InStep open_ (exec s c) := by
  obtain ⟨op, env⟩ := c
  cases op with
  | updateSettings settings => exact inStep_store h hk (normalize_normalize settings)
  | resetSettings => exact inStep_store h hk normalize_defaultSettings

/-- Two services that are started on one file with one key have the same settings. -/
theorem new_congr {env env' : Env} (file : Option String) (hk : env'.openValue = env.openValue)
    (hr : env'.readErr = env.readErr) :
    (Service.new file env').settings = (Service.new file env).settings := by
  have hopen : openSettings env' = openSettings env := by
    funext loaded
    unfold openSettings decrypt
    rw [hk]
  unfold Service.new Service.loadFromFile
  rw [hr, hopen]

/-- What a start finds is normal, whatever the file is. -/
theorem normal_new (file : Option String) (env : Env) :
    normalize (Service.new file env).settings = (Service.new file env).settings := by
  unfold Service.new Service.loadFromFile
  cases env.readErr with
  | some err => exact normalize_defaultSettings
  | none =>
    cases file with
    | none => exact normalize_defaultSettings
    | some data =>
      dsimp only
      cases (parse data).bind readRaw with
      | none => exact normalize_defaultSettings
      | some raw =>
        dsimp only
        cases hopen : openSettings env (decodeFile raw) with
        | error err => exact normalize_defaultSettings
        | ok settings =>
          unfold openSettings at hopen
          split at hopen
          · cases hopen
          split at hopen
          · cases hopen
          · obtain rfl := Except.ok.inj hopen
            exact normalize_normalize _

theorem file_new (file : Option String) (env : Env) : (Service.new file env).file = file := by
  unfold Service.new Service.loadFromFile
  repeat' split
  all_goals rfl

theorem inStep_new {file : Option String} {env : Env} (hk : env.openValue = open_)
    (hread : env.readErr = none) : InStep open_ (Service.new file env) := by
  refine ⟨normal_new file env, fun env' hk' hread' => ?_⟩
  rw [file_new]
  exact new_congr file (hk'.trans hk.symm) (hread'.trans hread.symm)

/-- **A restart changes nothing**: after every run that started on a file that could be read, of
this build or of an older one, a service that is started anew has the settings of the memory. -/
theorem restart_run {file : Option String} {env : Env} (hk : env.openValue = open_)
    (hread : env.readErr = none) {calls : List Call}
    (hrun : Lib.Transition.RunMeets exec (fun _ c => Keyed open_ c.env) (Service.new file env)
      calls) : InStep open_ (Lib.Transition.run exec (Service.new file env) calls) :=
  Lib.Transition.run_inv_of_meets exec (P := InStep open_) (fun _ _ hs hc => inStep_exec hs hc)
    calls _ hrun (inStep_new hk hread)

/-- Values are stored as they are, and nothing fails. -/
def plainEnv : Env where
  settings := none
  sealValue _ plain := plain
  openValue _ sealed := .ok sealed
  readErr := none
  writeErr := none
  dialErr := none
  statusWriteErr := none
  now := ""

/-- A key pair is stored, and found by the next start. -/
theorem restart_after_update : InStep plainEnv.openValue (Lib.Transition.run exec
    (Service.new none plainEnv) [⟨.updateSettings { AppSettings.zero with
      globalAccessKey := "ak", globalSecretKey := "sk" }, plainEnv⟩]) :=
  restart_run rfl rfl ⟨⟨rfl, fun _ _ => rfl⟩, trivial⟩

end MqStudio.SettingsService
