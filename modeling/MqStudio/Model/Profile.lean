import MqStudio.Lib.Json.Decode
import MqStudio.Lib.Errors
import MqStudio.Lib.Maps

/-!
# Connection profiles

`model/profile.go`: a saved connection of any broker family, and the record it
is stored and exported as.  The families and the mechanisms are open string
types, as in the source, with their named values.

A nil secrets map and an empty one cannot be told apart, so `secrets` is a plain
map; a nil options map is kept apart from an empty one, since `UpdateConnection`
reads the difference.

* `SetACL` is the one writer of the key pair.
* `decodeRecord_encodeRecord`: a record reads back from its JSON.
-/

namespace MqStudio.Model

open Lib.Json Lib.Errors

/-! ### Families and mechanisms -/

/-- A broker family. -/
structure MQKind where
  name : String
deriving DecidableEq

def kindRocketMQ : MQKind := ⟨"rocketmq"⟩
def kindKafka : MQKind := ⟨"kafka"⟩

/-- How a connection authenticates. -/
structure AuthMechanism where
  name : String
deriving DecidableEq

def authNone : AuthMechanism := ⟨"none"⟩
def authACL : AuthMechanism := ⟨"acl"⟩
def authPlain : AuthMechanism := ⟨"plain"⟩
def authSASLPlain : AuthMechanism := ⟨"sasl-plain"⟩
def authSASLScram : AuthMechanism := ⟨"sasl-scram"⟩

/-- Whether a profile was last seen open. -/
structure ConnectionStatus where
  name : String
deriving DecidableEq

def statusOnline : ConnectionStatus := ⟨"online"⟩
def statusOffline : ConnectionStatus := ⟨"offline"⟩

/-- The non-secret half of a connection's credentials. -/
structure AuthConfig where
  mechanism : AuthMechanism
deriving DecidableEq

/-! ### Profiles -/

/-- One saved connection, of any family. -/
structure ConnectionProfile where
  id : Int
  name : String
  group : String
  kind : MQKind
  endpoints : String
  timeoutSec : Int64
  auth : AuthConfig
  status : ConnectionStatus
  lastCheck : String
  isDefault : Bool
  remark : String
  options : Option StringMap
  secrets : StringMap
deriving DecidableEq

/-- The zero value. -/
def ConnectionProfile.zero : ConnectionProfile where
  id := 0
  name := ""
  group := ""
  kind := ⟨""⟩
  endpoints := ""
  timeoutSec := 0
  auth := ⟨⟨""⟩⟩
  status := ⟨""⟩
  lastCheck := ""
  isDefault := false
  remark := ""
  options := none
  secrets := ∅

def secretAccessKey : String := "accessKey"
def secretSecretKey : String := "secretKey"

/-- An empty value removes the key. -/
def setSecretIn (m : StringMap) (key value : String) : StringMap :=
  if value = "" then m.erase key else m.insert key value

namespace ConnectionProfile

def secret (p : ConnectionProfile) (key : String) : String := p.secrets.getD key ""

def aclEnabled (p : ConnectionProfile) : Bool := p.auth.mechanism = authACL

def setSecret (p : ConnectionProfile) (key value : String) : ConnectionProfile :=
  { p with secrets := setSecretIn p.secrets key value }

def withMechanism (p : ConnectionProfile) (m : AuthMechanism) : ConnectionProfile :=
  { p with auth := { p.auth with mechanism := m } }

/-- Sets the mechanism and the key pair together. -/
def setACL (p : ConnectionProfile) (enabled : Bool) (accessKey secretKey : String) :
    ConnectionProfile :=
  if !enabled then
    ((p.withMechanism authNone).setSecret secretAccessKey "").setSecret secretSecretKey ""
  else
    ((p.withMechanism authACL).setSecret secretAccessKey accessKey).setSecret
      secretSecretKey secretKey

end ConnectionProfile

/-! ### Records -/

/-- The serialisable form of a profile, with the field names older files carry. -/
structure ConnectionRecord where
  connectionProfile : ConnectionProfile
  secrets : StringMap
  legacyNameServer : String
  legacyEnableACL : Bool
  legacyAccessKey : String
  legacySecretKey : String
deriving DecidableEq

def ConnectionRecord.zero : ConnectionRecord := ⟨.zero, ∅, "", false, "", ""⟩

def newConnectionRecord (p : ConnectionProfile) : ConnectionRecord where
  connectionProfile := { p with secrets := ∅ }
  secrets := p.secrets
  legacyNameServer := ""
  legacyEnableACL := false
  legacyAccessKey := ""
  legacySecretKey := ""

/-- Applies the compatibility rules of older files. -/
def ConnectionRecord.profile (r : ConnectionRecord) : ConnectionProfile :=
  let p := { r.connectionProfile with secrets := r.secrets }
  let p := if p.kind = ⟨""⟩ then { p with kind := kindRocketMQ } else p
  let p := if p.endpoints = "" then { p with endpoints := r.legacyNameServer } else p
  let p :=
    if p.auth.mechanism = ⟨""⟩ then
      { p with auth := ⟨if r.legacyEnableACL then authACL else authNone⟩ }
    else p
  if p.secrets.isEmpty then
    (p.setSecret secretAccessKey r.legacyAccessKey).setSecret secretSecretKey r.legacySecretKey
  else p

/-! ### JSON -/

def authMembers : List (Member AuthConfig) :=
  [.of "mechanism" .string decodeString (·.mechanism.name) fun a x => { a with mechanism := ⟨x⟩ }]

/-- The members of a profile; its secrets are no member. -/
def profileMembers : List (Member ConnectionProfile) :=
  [.of "id" ofInt decodeInt (·.id) fun p x => { p with id := x },
   .of "name" .string decodeString (·.name) fun p x => { p with name := x },
   .of "group" .string decodeString (·.group) fun p x => { p with group := x },
   .of "kind" .string decodeString (·.kind.name) fun p x => { p with kind := ⟨x⟩ },
   .of "endpoints" .string decodeString (·.endpoints) fun p x => { p with endpoints := x },
   .of "timeoutSec" (ofInt ·.toInt) decodeInt64 (·.timeoutSec) fun p x =>
     { p with timeoutSec := x },
   .of "auth" (encodeStruct authMembers) (decodeStruct authMembers) (·.auth) fun p x =>
     { p with auth := x },
   .of "status" .string decodeString (·.status.name) fun p x => { p with status := ⟨x⟩ },
   .of "lastCheck" .string decodeString (·.lastCheck) fun p x => { p with lastCheck := x },
   .of "isDefault" .bool decodeBool (·.isDefault) fun p x => { p with isDefault := x },
   .of "remark" .string decodeString (·.remark) fun p x => { p with remark := x },
   .of "options" encodeMap decodeMap (·.options) fun p x => { p with options := x }]

def recordMembers : List (Member ConnectionRecord) :=
  profileMembers.map
    (.within (·.connectionProfile) fun r p => { r with connectionProfile := p }) ++
  [.omitEmpty (·.isEmpty)
     (.of "secrets" encodeMap decodeMap (some ·.secrets) fun r x => { r with secrets := x.getD ∅ })
     (·.secrets),
   .omitEmpty (· == "")
     (.of "nameServer" .string decodeString (·.legacyNameServer) fun r x =>
       { r with legacyNameServer := x })
     (·.legacyNameServer),
   .omitEmpty (!·)
     (.of "enableACL" .bool decodeBool (·.legacyEnableACL) fun r x => { r with legacyEnableACL := x })
     (·.legacyEnableACL),
   .omitEmpty (· == "")
     (.of "accessKey" .string decodeString (·.legacyAccessKey) fun r x =>
       { r with legacyAccessKey := x })
     (·.legacyAccessKey),
   .omitEmpty (· == "")
     (.of "secretKey" .string decodeString (·.legacySecretKey) fun r x =>
       { r with legacySecretKey := x })
     (·.legacySecretKey)]

def encodeRecord : ConnectionRecord → Value := encodeStruct recordMembers

def decodeRecord : Decoder ConnectionRecord := decodeStruct recordMembers

theorem decodeAuth_encodeAuth (old a : AuthConfig) :
    decodeStruct authMembers old (encodeStruct authMembers a) = (a, true) := by
  rw [decodeStruct_encodeStruct (by decide)]
  rfl

/-- The secrets member reads back, written or omitted. -/
theorem reread_secrets (p : ConnectionProfile) (r : ConnectionRecord) (h : r.secrets = ∅) :
    (Member.omitEmpty (·.isEmpty)
      (.of "secrets" encodeMap decodeMap (some ·.secrets) fun r x => { r with secrets := x.getD ∅ })
      (·.secrets)).reread (newConnectionRecord p) r = ({ r with secrets := p.secrets }, true) := by
  obtain ⟨q, m, ns, acl, ak, sk⟩ := r
  simp only at h
  subst h
  by_cases he : p.secrets = ∅
  · simp [Member.reread, Member.omitEmpty, newConnectionRecord, he]
  · simp [Member.reread, Member.omitEmpty, Member.of, newConnectionRecord, he,
      decodeMap_encodeMap (Or.inr rfl)]

/-- **A record reads back** from its JSON, where its id fits 64 bits. -/
theorem decodeRecord_encodeRecord {p : ConnectionProfile} (hid : -2 ^ 63 ≤ p.id ∧ p.id < 2 ^ 63) :
    decodeRecord .zero (encodeRecord (newConnectionRecord p)) = (newConnectionRecord p, true) := by
  rw [decodeRecord, encodeRecord, decodeStruct_encodeStruct (by decide)]
  simp only [recordMembers, profileMembers, List.map_cons, List.map_nil, List.cons_append,
    List.nil_append, decodeAll]
  rw [reread_secrets p _ rfl]
  obtain ⟨id, name, group, kind, endpoints, timeoutSec, auth, status, lastCheck, isDefault, remark,
    options, secrets⟩ := p
  simp [Member.reread, Member.of, Member.within, Member.omitEmpty, newConnectionRecord,
    ConnectionRecord.zero, ConnectionProfile.zero, decodeString, decodeBool,
    decodeInt_ofInt _ hid, decodeAuth_encodeAuth, decodeMap_encodeMap (Or.inl rfl)]

end MqStudio.Model
