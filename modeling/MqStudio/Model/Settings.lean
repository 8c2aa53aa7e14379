import MqStudio.Model.Profile

/-!
# Application settings

`model/settings.go`, with what `service/settings` does to a value before it
stores it (`normalize`) and what it hands to the connection service
(`getConnectTimeout`, `getGlobalACLCredentials`).

Integers are 64-bit, so the timeout arithmetic wraps as the source's does.

* `normalize_normalize`: normalising is idempotent.
* `normalize_defaultSettings`: the defaults pass their own checks.
* `decodeSettings_encodeSettings`: settings read back from their JSON.
-/

namespace MqStudio.Model

open Lib.Json Lib.Text

/-- A policy name the updater knows. -/
def validPolicy (value : String) : Bool :=
  value = "off" || value = "notify" || value = "download" || value = "auto"

/-- A step on the interface size ladder. -/
def validUIScale (value : String) : Bool :=
  value = "auto" || value = "12" || value = "13" || value = "14" || value = "15" ||
    value = "16" || value = "18" || value = "20"

structure AppSettings where
  theme : String
  language : String
  uiScale : String
  uiFont : String
  monospaceFont : String
  autoConnectLast : Bool
  updatePolicy : String
  closeBehavior : String
  connectTimeoutMs : Int64
  requestTimeoutMs : Int64
  globalAccessKey : String
  globalSecretKey : String
  lagAlertThreshold : Int64
  diskAlertThreshold : Int64
  desktopNotifications : Bool
  timezone : String
  timestampFormat : String
  autoFormatJson : Bool
  maxPayloadRenderBytes : Int64
  fetchLimit : Int64
deriving DecidableEq

def defaultSettings : AppSettings where
  theme := "system"
  language := "zh"
  uiScale := "auto"
  uiFont := "system"
  monospaceFont := "JetBrains Mono"
  autoConnectLast := true
  updatePolicy := "notify"
  closeBehavior := "minimizeToTray"
  connectTimeoutMs := 3000
  requestTimeoutMs := 5000
  globalAccessKey := ""
  globalSecretKey := ""
  lagAlertThreshold := 10000
  diskAlertThreshold := 75
  desktopNotifications := false
  timezone := "local"
  timestampFormat := "datetime"
  autoFormatJson := true
  maxPayloadRenderBytes := 512 * 1024
  fetchLimit := 64

/-- The zero value. -/
def AppSettings.zero : AppSettings :=
  ⟨"", "", "", "", "", false, "", "", 0, 0, "", "", 0, 0, false, "", "", false, 0, 0⟩

/-! ### Normalising -/

/-- Keep a value that passes its check, else take the default. -/
def orDefault {α : Type} (ok : α → Bool) (default value : α) : α :=
  if ok value then value else default

/-- A threshold cut to a percentage. -/
def clampPercent (value : Int64) : Int64 :=
  let value := if value < 0 then 0 else value
  if 100 < value then 100 else value

def normalize (s : AppSettings) : AppSettings :=
  let d := defaultSettings
  { s with
    theme := orDefault (fun v => v = "system" || v = "light" || v = "dark") d.theme s.theme
    language := orDefault (fun v => v = "zh" || v = "en") d.language s.language
    uiScale := orDefault validUIScale d.uiScale s.uiScale
    updatePolicy := orDefault validPolicy d.updatePolicy s.updatePolicy
    closeBehavior :=
      orDefault (fun v => v = "minimizeToTray" || v = "quit") d.closeBehavior s.closeBehavior
    uiFont := orDefault (fun v => trimSpace v ≠ "") d.uiFont s.uiFont
    monospaceFont := orDefault (fun v => trimSpace v ≠ "") d.monospaceFont s.monospaceFont
    connectTimeoutMs :=
      orDefault (fun v => 500 ≤ v && v ≤ 300000) d.connectTimeoutMs s.connectTimeoutMs
    requestTimeoutMs :=
      orDefault (fun v => 500 ≤ v && v ≤ 300000) d.requestTimeoutMs s.requestTimeoutMs
    lagAlertThreshold := orDefault (fun v => 0 ≤ v) 0 s.lagAlertThreshold
    diskAlertThreshold := clampPercent s.diskAlertThreshold
    timezone := orDefault (fun v => v = "local" || v = "utc") d.timezone s.timezone
    timestampFormat := orDefault (fun v => v = "datetime" || v = "ms") d.timestampFormat
      s.timestampFormat
    maxPayloadRenderBytes :=
      orDefault (fun v => 64 * 1024 ≤ v && v ≤ 4 * 1024 * 1024) d.maxPayloadRenderBytes
        s.maxPayloadRenderBytes
    fetchLimit := orDefault (fun v => 0 < v && v ≤ 1000) d.fetchLimit s.fetchLimit
    globalAccessKey := trimSpace s.globalAccessKey }

theorem orDefault_orDefault {α : Type} {ok : α → Bool} {d : α} (h : ok d = true) (v : α) :
    orDefault ok d (orDefault ok d v) = orDefault ok d v := by
  by_cases hv : ok v = true <;> simp [orDefault, hv, h]

theorem clampPercent_clampPercent (v : Int64) :
    clampPercent (clampPercent v) = clampPercent v := by
  have h0 : ¬ (100 : Int64) < 0 := by decide
  have h1 : ¬ (100 : Int64) < 100 := by decide
  unfold clampPercent
  by_cases hv : v < 0
  · simp [hv]
  · by_cases hw : (100 : Int64) < v
    · simp [hv, hw]
    · simp [hv, hw]

/-- **Normalising is idempotent.** -/
@[simp] theorem normalize_normalize (s : AppSettings) : normalize (normalize s) = normalize s := by
  simp only [normalize]
  rw [orDefault_orDefault (by decide), orDefault_orDefault (by decide),
    orDefault_orDefault (by decide), orDefault_orDefault (by decide),
    orDefault_orDefault (by decide), orDefault_orDefault (by decide),
    orDefault_orDefault (by decide), orDefault_orDefault (by decide),
    orDefault_orDefault (by decide), orDefault_orDefault (by decide),
    orDefault_orDefault (by decide), orDefault_orDefault (by decide),
    orDefault_orDefault (by decide), orDefault_orDefault (by decide), clampPercent_clampPercent,
    trimSpace_trimSpace]

theorem normalize_defaultSettings : normalize defaultSettings = defaultSettings := by decide

/-! ### What the connection service reads -/

/-- A `time.Duration`, in nanoseconds. -/
abbrev Duration := Int64

def second : Duration := 1000000000
def millisecond : Duration := 1000000

def AppSettings.getConnectTimeout (s : AppSettings) : Duration :=
  (if s.connectTimeoutMs ≤ 0 then 3000 else s.connectTimeoutMs) * millisecond

def AppSettings.getGlobalACLCredentials (s : AppSettings) : String × String :=
  (s.globalAccessKey, s.globalSecretKey)

/-! ### JSON -/

def settingsMembers : List (Member AppSettings) :=
  [.of "theme" .string decodeString (·.theme) fun s x => { s with theme := x },
   .of "language" .string decodeString (·.language) fun s x => { s with language := x },
   .of "uiScale" .string decodeString (·.uiScale) fun s x => { s with uiScale := x },
   .of "uiFont" .string decodeString (·.uiFont) fun s x => { s with uiFont := x },
   .of "monospaceFont" .string decodeString (·.monospaceFont) fun s x =>
     { s with monospaceFont := x },
   .of "autoConnectLast" .bool decodeBool (·.autoConnectLast) fun s x =>
     { s with autoConnectLast := x },
   .of "updatePolicy" .string decodeString (·.updatePolicy) fun s x => { s with updatePolicy := x },
   .of "closeBehavior" .string decodeString (·.closeBehavior) fun s x =>
     { s with closeBehavior := x },
   .of "connectTimeoutMs" (ofInt ·.toInt) decodeInt64 (·.connectTimeoutMs) fun s x =>
     { s with connectTimeoutMs := x },
   .of "requestTimeoutMs" (ofInt ·.toInt) decodeInt64 (·.requestTimeoutMs) fun s x =>
     { s with requestTimeoutMs := x },
   .of "globalAccessKey" .string decodeString (·.globalAccessKey) fun s x =>
     { s with globalAccessKey := x },
   .of "globalSecretKey" .string decodeString (·.globalSecretKey) fun s x =>
     { s with globalSecretKey := x },
   .of "lagAlertThreshold" (ofInt ·.toInt) decodeInt64 (·.lagAlertThreshold) fun s x =>
     { s with lagAlertThreshold := x },
   .of "diskAlertThreshold" (ofInt ·.toInt) decodeInt64 (·.diskAlertThreshold) fun s x =>
     { s with diskAlertThreshold := x },
   .of "desktopNotifications" .bool decodeBool (·.desktopNotifications) fun s x =>
     { s with desktopNotifications := x },
   .of "timezone" .string decodeString (·.timezone) fun s x => { s with timezone := x },
   .of "timestampFormat" .string decodeString (·.timestampFormat) fun s x =>
     { s with timestampFormat := x },
   .of "autoFormatJson" .bool decodeBool (·.autoFormatJson) fun s x => { s with autoFormatJson := x },
   .of "maxPayloadRenderBytes" (ofInt ·.toInt) decodeInt64 (·.maxPayloadRenderBytes) fun s x =>
     { s with maxPayloadRenderBytes := x },
   .of "fetchLimit" (ofInt ·.toInt) decodeInt64 (·.fetchLimit) fun s x => { s with fetchLimit := x }]

def encodeSettings : AppSettings → Value := encodeStruct settingsMembers

def decodeSettings : Decoder AppSettings := decodeStruct settingsMembers

/-- **Settings read back** from their JSON. -/
theorem decodeSettings_encodeSettings (old s : AppSettings) :
    decodeSettings old (encodeSettings s) = (s, true) := by
  rw [decodeSettings, encodeSettings, decodeStruct_encodeStruct (by decide)]
  simp [settingsMembers, decodeAll, Member.reread, Member.of, decodeString, decodeBool]

end MqStudio.Model
