import MqStudio.Model.Settings

/-!
# The connection store

`service/connection`: the state of the service, what a call reads from outside,
and the pure parts of `validation.go` and `persistence.go`.

A `Service` is the Go struct together with the two things it alone writes: the
text of `connections.json` and the clients its runtime holds open, each kept as
the resolved profile it was dialled with.  Saved profiles are encrypted with
AES-GCM under a random nonce, so what sealing returns is part of the outside;
the key is loaded before any service is built, so sealing itself does not fail.
-/

namespace MqStudio.Connection

open Model Lib.Json Lib.Errors Lib.Text

/-- Profiles by id. -/
abbrev Profiles := Std.ExtTreeMap Int ConnectionProfile compare

structure Service where
  connections : Profiles
  nextID : Int
  reconnectReload : Bool
  /-- The endpoint policy, nil in a service built without one. -/
  endpoints : Option (MQKind → Bool)
  /-- The content of the data file, none where it does not exist. -/
  file : Option String
  /-- The open clients, by the profile each was dialled with. -/
  clients : Profiles

/-- What one call meets outside the service. -/
structure Env where
  /-- The settings provider, nil in a service built without one. -/
  settings : Option AppSettings
  /-- AES-GCM under a field's key: the base64 text of a plain value. -/
  sealValue : String → String → String
  openValue : String → String → Except Error String
  /-- The errors of reading and of replacing the data file, of dialling and of
  replacing the file once a client is open. -/
  readErr : Option Error
  writeErr : Option Error
  dialErr : Option Error
  statusWriteErr : Option Error
  now : String

/-! ### Encryption of one value -/

def encryptedPrefix : String := "ENC:"

def isEncrypted (s : String) : Bool := encryptedPrefix.toList.isPrefixOf s.toList

def encrypt (env : Env) (plaintext field : String) : String :=
  if plaintext = "" then "" else encryptedPrefix ++ env.sealValue field plaintext

def decrypt (env : Env) (ciphertext field : String) : Except Error String :=
  if ciphertext = "" then .ok ""
  else if !isEncrypted ciphertext then .ok ciphertext
  else env.openValue field (String.ofList (ciphertext.toList.drop 4))

/-! ### Validation -/

/-- Whether a text carries at least one address. -/
def hasEndpoint (raw : String) : Bool :=
  !(fieldsFunc (fun r => r = ';' || r = ',' || r = ' ' || r = '\t' || r = '\r' || r = '\n')
    raw).isEmpty

/-- Trims a group label and collapses its inner white space. -/
def normalizeConnectionGroup (group : String) : String := " ".intercalate (fields group)

theorem normalizeConnectionGroup_idem (group : String) :
    normalizeConnectionGroup (normalizeConnectionGroup group) = normalizeConnectionGroup group := by
  rw [normalizeConnectionGroup, normalizeConnectionGroup, fields_intercalate_fields]

/-- An ACL decision: whether it is on, and the key pair. -/
structure ACL where
  enabled : Bool
  accessKey : String
  secretKey : String
deriving DecidableEq

def normalizeACLConfig (enableACL : Bool) (accessKey secretKey : String) : Except Error ACL :=
  let accessKey := trimSpace accessKey
  let secretKey := trimSpace secretKey
  if !enableACL then .ok ⟨false, "", ""⟩
  else if accessKey = "" then .error (.new "AccessKey is required when ACL is enabled")
  else if secretKey = "" then .error (.new "SecretKey is required when ACL is enabled")
  else .ok ⟨true, accessKey, secretKey⟩

/-- The normalised ACL decision a profile carries. -/
def aclConfig (p : ConnectionProfile) : Except Error ACL :=
  normalizeACLConfig p.aclEnabled (p.secret secretAccessKey) (p.secret secretSecretKey)

def Service.requiresEndpoints (s : Service) (kind : MQKind) : Bool :=
  match s.endpoints with
  | none => true
  | some policy => policy kind

/-- The trimmed name and address, where every family's rules hold. -/
def Service.validateConnectionFields (s : Service) (kind : MQKind) (name endpoints : String)
    (timeoutSec : Int64) : Except Error (String × String) :=
  let name := trimSpace name
  let endpoints := trimSpace endpoints
  if name = "" then .error (.new "connection name cannot be empty")
  else if s.requiresEndpoints kind && !hasEndpoint endpoints then
    .error (.new "connection address cannot be empty")
  else if timeoutSec < 0 || 300 < timeoutSec then
    .error (.new "connection timeout must be between 1 and 300 seconds")
  else .ok (name, endpoints)

/-! ### Building the state from saved profiles -/

/-- The profiles loaded so far, the next id and whether a default was seen. -/
structure Building where
  loaded : Profiles
  nextID : Int
  hasDefault : Bool

/-- The id a loaded profile gets, and the next id after it. -/
def Building.assignID (b : Building) (id : Int) : Int × Int :=
  let id := if id ≤ 0 then b.nextID else id
  let nextID := if b.nextID ≤ id then id + 1 else b.nextID
  if b.loaded.contains id then (nextID, nextID + 1) else (id, nextID)

/-- The compatibility rules for one loaded profile, apart from its id and default flag. -/
def normalizeLoaded (p : ConnectionProfile) : ConnectionProfile :=
  let mechanism := p.auth.mechanism
  let acl := match aclConfig p with
    | .ok acl => acl
    | .error _ => ⟨false, "", ""⟩
  let p := { p with
    group := normalizeConnectionGroup p.group
    status := statusOffline
    lastCheck := "-" }
  let p := p.setACL acl.enabled acl.accessKey acl.secretKey
  -- Another family's mechanism survives the load.
  if !acl.enabled && mechanism ≠ authACL then p.withMechanism mechanism else p

def Building.add (b : Building) (p : ConnectionProfile) : Building :=
  let ids := b.assignID p.id
  let isDefault := p.isDefault && !b.hasDefault
  { loaded := b.loaded.insert ids.1 { normalizeLoaded p with id := ids.1, isDefault := isDefault }
    nextID := ids.2
    hasDefault := b.hasDefault || p.isDefault }

def sortedConnectionIDs (connections : Profiles) : List Int := connections.keys

/-- The profiles in the order of their ids. -/
def copyConnectionsSorted (connections : Profiles) : List ConnectionProfile :=
  connections.toList.map (·.2)

/-- Sets the default flag of one profile. -/
def setDefaultFlag (connections : Profiles) (id : Int) (isDefault : Bool) : Profiles :=
  connections.modify id fun p => { p with isDefault := isDefault }

/-- Applies the compatibility rules used when loading saved profiles. -/
def buildConnectionState (connections : List (Option ConnectionProfile)) : Profiles × Int :=
  let b := (connections.filterMap id).foldl Building.add ⟨∅, 1, false⟩
  let loaded :=
    if b.hasDefault then b.loaded
    else match sortedConnectionIDs b.loaded with
      | id :: _ => setDefaultFlag b.loaded id true
      | [] => b.loaded
  (loaded, b.nextID)

/-! ### The data file -/

structure Store where
  schemaVersion : Int64
  connections : Option (List (Option ConnectionRecord))

def currentSchemaVersion : Int64 := 1

/-- A list of records, as both the data file and an export carry it. -/
def encodeRecords : Option (List (Option ConnectionRecord)) → Value
  | none => .null
  | some rs => .array (rs.map fun r => match r with
    | none => .null
    | some r => encodeRecord r)

def decodeRecords : Decoder (Option (List (Option ConnectionRecord))) :=
  decodeSlice none (decodePointer .zero decodeRecord)

def storeMembers : List (Member Store) :=
  [.of "schemaVersion" (ofInt ·.toInt) decodeInt64 (·.schemaVersion) fun s x =>
     { s with schemaVersion := x },
   .of "connections" encodeRecords decodeRecords (·.connections) fun s x =>
     { s with connections := x }]

/-- `json.Unmarshal`, onto a value that is there. -/
def unmarshal {α : Type} (dec : Decoder α) (old : α) (text : String) : Except Error α :=
  match parse text with
  | none => .error .json
  | some v => if (dec old v).2 then .ok (dec old v).1 else .error .json

/-- Every stored credential is encrypted on the way out. -/
def encryptSecrets (env : Env) (secrets : StringMap) : StringMap :=
  secrets.map fun key value => encrypt env value key

def encodeConnectionsForDisk (env : Env) (connections : List ConnectionProfile) : String :=
  marshalIndent <| encodeStruct storeMembers
    { schemaVersion := currentSchemaVersion
      connections := some <| connections.map fun p =>
        let r := newConnectionRecord p
        some { r with secrets := encryptSecrets env r.secrets } }

/-- Every marked credential is decrypted on the way in; the rest passes through. -/
def decryptSecrets (env : Env) (p : ConnectionProfile) : Except Error ConnectionProfile :=
  p.secrets.toList.foldlM (fun p e =>
    if e.2 = "" || !isEncrypted e.2 then .ok p
    else match decrypt env e.2 e.1 with
      | .ok plain => .ok (p.setSecret e.1 plain)
      | .error err =>
          .error (.wrapQuoted s!"failed to decrypt {e.1} for connection" p.name "" err)) p

/-- The state `connections.json` describes; nothing changes where there is no file. -/
def Service.loadConnectionsFromFile (s : Service) (env : Env) : Except Error Service :=
  match env.readErr, s.file with
  | some err, _ => .error err
  | none, none => .ok s
  | none, some data => do
    let persisted ← unmarshal (decodeStruct storeMembers) ⟨0, none⟩ data
    let connections ← ((persisted.connections.getD []).filterMap id).mapM fun r =>
      decryptSecrets env r.profile
    let (loaded, nextID) := buildConnectionState (connections.map some)
    .ok { s with connections := loaded, nextID := nextID }

/-- `atomicfile.Write` to the data file. -/
def Service.writeFile (s : Service) (data : String) : Option Error → Service × Option Error
  | none => ({ s with file := some data }, none)
  | some err => (s, some err)

def Service.saveConnectionsLocked (s : Service) (env : Env) (writeErr : Option Error) :
    Service × Option Error :=
  s.writeFile (encodeConnectionsForDisk env (copyConnectionsSorted s.connections)) writeErr

/-! ### Replacing every profile -/

/-- One profile as a replacement stores it. -/
def Service.prepareOne (s : Service) (p : ConnectionProfile) : Except Error ConnectionProfile :=
  match s.validateConnectionFields p.kind p.name p.endpoints p.timeoutSec with
  | .error err => .error (.wrapQuoted "invalid connection" p.name "" err)
  | .ok (name, nameServer) =>
    match aclConfig p with
    | .error err => .error (.wrapQuoted "invalid ACL configuration for connection" name "" err)
    | .ok acl =>
      let p := { p with
        name := name
        endpoints := nameServer
        group := normalizeConnectionGroup p.group }
      let p := p.setACL acl.enabled acl.accessKey acl.secretKey
      .ok { p with status := statusOffline, lastCheck := "-" }

def Service.prepareReplacement (s : Service) (connections : List (Option ConnectionProfile)) :
    Except Error (List ConnectionProfile) := do
  let prepared ← (connections.filterMap id).mapM s.prepareOne
  .ok (copyConnectionsSorted (buildConnectionState (prepared.map some)).1)

def Service.validateConnections (s : Service) (connections : List (Option ConnectionProfile)) :
    Option Error :=
  match s.prepareReplacement connections with
  | .error err => some err
  | .ok _ => none

end MqStudio.Connection
