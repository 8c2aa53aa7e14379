import MqStudio.Form.Bridge
import MqStudio.Lib.JavaScript

/-!
# What the connection forms submit

The drafts of `ConnectionForms.tsx` and the submissions of `connectionDraft.ts`: each
family's fields translated into what the bridge stores.  Number fields hold what
`Number.parseInt` made of the typed text.

* `RocketMQDraft`, …, `SolaceDraft`: one draft a family.
* `rocketMQSubmission`, …, `solaceSubmission`: its translation, with the credentials mode.
* `toSubmission`: the dispatch over the families.
-/

namespace MqStudio.Form

open Model Lib.Json Lib.JavaScript

/-! ### Shared shapes -/

/-- What every form keeps beside the fields it draws. -/
structure Labels where
  name : String
  group : String
  remark : String
  timeoutSec : Int64

/-- The same, with the state of the credentials. -/
structure Credentials extends Labels where
  credentialsStored : Bool
  clearCredentials : Bool

def Credentials.keepStored (c : Credentials) : Bool := c.credentialsStored && !c.clearCredentials

/-- What says what to do with the secrets a form left blank. -/
inductive CredentialsMode where
  | preserve
  | replace
  | clear
deriving DecidableEq

def CredentialsMode.text : CredentialsMode → String
  | preserve => "preserve"
  | replace => "replace"
  | clear => "clear"

/-- What the connection form submits, before secrets policy is applied. -/
structure ConnectionDraft where
  name : String
  group : String
  kind : MQKind
  endpoints : String
  timeoutSec : Int64
  authMechanism : AuthMechanism
  options : StringMap
  secrets : StringMap
  remark : String

structure Submission where
  draft : ConnectionDraft
  credentialsMode : CredentialsMode

/-- What is sent of a submission. -/
def Submission.toInput (submission : Submission) : ConnectionInput where
  name := submission.draft.name
  group := submission.draft.group
  kind := submission.draft.kind
  endpoints := submission.draft.endpoints
  timeoutSec := submission.draft.timeoutSec
  auth := submission.draft.authMechanism
  options := some submission.draft.options
  secrets := submission.draft.secrets
  remark := submission.draft.remark
  credentialsMode := submission.credentialsMode.text

/-- An object of text fields. -/
def record (entries : List (String × String)) : StringMap :=
  entries.foldl (fun m e => m.insert e.1 e.2) ∅

/-- `String` of a flag. -/
def flagText (b : Bool) : String := if b then "true" else "false"

/-- The mode of a form that keeps what is stored wherever anything is. -/
def Credentials.keepingMode (c : Credentials) : CredentialsMode :=
  if c.clearCredentials then .clear else if c.keepStored then .preserve else .replace

/-- The mode of a form whose one credential is replaced as soon as it is typed. -/
def Credentials.typedMode (c : Credentials) (typed : Bool) : CredentialsMode :=
  if c.clearCredentials then .clear else if typed || !c.keepStored then .replace else .preserve

/-! ### RocketMQ -/

@[simp] def optionVersion : String := "version"
@[simp] def optionAccess : String := "access"
@[simp] def optionNamespace : String := "namespace"

inductive RocketMQVersion where
  | v4
  | v5
deriving DecidableEq

def RocketMQVersion.text : RocketMQVersion → String
  | v4 => "4.x"
  | v5 => "5.x"

inductive RocketMQAccess where
  | ns
  | proxy
deriving DecidableEq

def RocketMQAccess.text : RocketMQAccess → String
  | ns => "ns"
  | proxy => "proxy"

structure RocketMQDraft extends Credentials where
  version : RocketMQVersion
  access : RocketMQAccess
  endpoints : String
  accessKey : String
  secretKey : String
  ns : String

def rocketMQSubmission (draft : RocketMQDraft) : Submission :=
  let accessKey := jsTrim draft.accessKey
  let secretKey := jsTrim draft.secretKey
  let typed := accessKey ≠ "" || secretKey ≠ ""
  { draft := {
      name := jsTrim draft.name
      group := draft.group
      kind := kindRocketMQ
      endpoints := jsTrim draft.endpoints
      timeoutSec := draft.timeoutSec
      authMechanism := if typed || draft.keepStored then authACL else authNone
      options := record [
        (optionVersion, draft.version.text),
        (optionAccess, draft.access.text),
        (optionNamespace, jsTrim draft.ns)]
      secrets := record [("accessKey", accessKey), ("secretKey", secretKey)]
      remark := draft.remark }
    credentialsMode := draft.keepingMode }

/-! ### RabbitMQ -/

@[simp] def optionVHost : String := "vhost"
@[simp] def optionAMQP : String := "amqpEndpoint"
@[simp] def optionTLS : String := "tls"
@[simp] def optionTLSSkipVerify : String := "tlsSkipVerify"

structure RabbitMQDraft extends Credentials where
  management : String
  amqp : String
  vhost : String
  username : String
  password : String
  tls : Bool
  tlsSkipVerify : Bool

def rabbitMQSubmission (draft : RabbitMQDraft) : Submission :=
  let username := jsTrim draft.username
  let password := jsTrim draft.password
  let typed := username ≠ "" || password ≠ ""
  { draft := {
      name := jsTrim draft.name
      group := draft.group
      kind := kindRabbitMQ
      endpoints := jsTrim draft.management
      timeoutSec := draft.timeoutSec
      authMechanism := authPlain
      options := record [
        (optionVHost, if jsTrim draft.vhost = "" then "/" else jsTrim draft.vhost),
        (optionAMQP, jsTrim draft.amqp),
        (optionTLS, flagText draft.tls),
        (optionTLSSkipVerify, flagText (draft.tls && draft.tlsSkipVerify))]
      secrets := record [("username", username), ("password", password)]
      remark := draft.remark }
    credentialsMode := draft.typedMode typed }

/-! ### Kafka -/

@[simp] def optionKafkaScramSHA : String := "scramSha"
@[simp] def optionKafkaTLS : String := "tls"
@[simp] def optionKafkaTLSSkipVerify : String := "tlsSkipVerify"
@[simp] def optionKafkaTLSCAFile : String := "tlsCaFile"

inductive KafkaMechanism where
  | none
  | saslPlain
  | saslScram
deriving DecidableEq

/-- The form's three choices in the store's own vocabulary. -/
def KafkaMechanism.stored : KafkaMechanism → AuthMechanism
  | none => authNone
  | saslPlain => authSASLPlain
  | saslScram => authSASLScram

inductive KafkaScramSHA where
  | sha256
  | sha512
deriving DecidableEq

def KafkaScramSHA.text : KafkaScramSHA → String
  | sha256 => "256"
  | sha512 => "512"

structure KafkaDraft extends Credentials where
  endpoints : String
  mechanism : KafkaMechanism
  scramSHA : KafkaScramSHA
  username : String
  password : String
  tls : Bool
  tlsCAFile : String
  tlsSkipVerify : Bool

def kafkaSubmission (draft : KafkaDraft) : Submission :=
  let authenticating : Bool := draft.mechanism ≠ .none
  let username := if authenticating then jsTrim draft.username else ""
  let password := if authenticating then jsTrim draft.password else ""
  let typed := username ≠ "" || password ≠ ""
  let keepStored := authenticating && draft.keepStored
  { draft := {
      name := jsTrim draft.name
      group := draft.group
      kind := kindKafka
      endpoints := jsTrim draft.endpoints
      timeoutSec := draft.timeoutSec
      authMechanism := draft.mechanism.stored
      options := record [
        (optionKafkaScramSHA, draft.scramSHA.text),
        (optionKafkaTLS, flagText draft.tls),
        (optionKafkaTLSCAFile, if draft.tls then jsTrim draft.tlsCAFile else ""),
        (optionKafkaTLSSkipVerify, flagText (draft.tls && draft.tlsSkipVerify))]
      secrets := record [("username", username), ("password", password)]
      remark := draft.remark }
    credentialsMode :=
      if !authenticating || draft.clearCredentials then .clear
      else if typed || !keepStored then .replace
      else .preserve }

/-! ### Redis Streams -/

@[simp] def optionRedisDeployment : String := "deployment"
@[simp] def optionRedisMasterName : String := "masterName"
@[simp] def optionRedisDB : String := "db"
@[simp] def optionRedisStreamFilter : String := "streamFilter"
@[simp] def optionRedisTLS : String := "tls"
@[simp] def optionRedisTLSSkipVerify : String := "tlsSkipVerify"

inductive RedisDeployment where
  | standalone
  | sentinel
  | cluster
deriving DecidableEq

def RedisDeployment.text : RedisDeployment → String
  | standalone => "standalone"
  | sentinel => "sentinel"
  | cluster => "cluster"

structure RedisDraft extends Credentials where
  deployment : RedisDeployment
  endpoints : String
  masterName : String
  db : Whole
  streamFilter : String
  username : String
  password : String
  tls : Bool
  tlsSkipVerify : Bool

def redisSubmission (draft : RedisDraft) : Submission :=
  let username := jsTrim draft.username
  let password := jsTrim draft.password
  let typed := username ≠ "" || password ≠ ""
  { draft := {
      name := jsTrim draft.name
      group := draft.group
      kind := kindRedisStream
      endpoints := jsTrim draft.endpoints
      timeoutSec := draft.timeoutSec
      authMechanism := if typed || draft.keepStored then authPlain else authNone
      options := record [
        (optionRedisDeployment, draft.deployment.text),
        (optionRedisMasterName,
          if draft.deployment = .sentinel then jsTrim draft.masterName else ""),
        (optionRedisDB, if draft.deployment = .cluster then "0" else draft.db.text),
        (optionRedisStreamFilter, jsTrim draft.streamFilter),
        (optionRedisTLS, flagText draft.tls),
        (optionRedisTLSSkipVerify, flagText (draft.tls && draft.tlsSkipVerify))]
      secrets := record [("username", username), ("password", password)]
      remark := draft.remark }
    credentialsMode := draft.typedMode typed }

/-! ### MQTT -/

@[simp] def optionMqttProtocol : String := "protocolVersion"
@[simp] def optionMqttTransport : String := "transport"
@[simp] def optionMqttWSPath : String := "wsPath"
@[simp] def optionMqttClientID : String := "clientId"
@[simp] def optionMqttKeepAlive : String := "keepAliveSec"
@[simp] def optionMqttCleanStart : String := "cleanStart"
@[simp] def optionMqttSessionExpiry : String := "sessionExpirySec"
@[simp] def optionMqttTLSCAFile : String := "tlsCaFile"
@[simp] def optionMqttTLSSkipVerify : String := "tlsSkipVerify"
@[simp] def optionMqttManagementURL : String := "managementUrl"

/-- The two choices of a form that authenticates with a user or not at all. -/
inductive UserMechanism where
  | none
  | plain
deriving DecidableEq

def UserMechanism.stored : UserMechanism → AuthMechanism
  | none => authNone
  | plain => authPlain

abbrev MqttMechanism := UserMechanism

inductive MqttProtocol where
  | v5
  | v311
deriving DecidableEq

def MqttProtocol.text : MqttProtocol → String
  | v5 => "5"
  | v311 => "311"

inductive MqttTransport where
  | tcp
  | tls
  | ws
  | wss
deriving DecidableEq

def MqttTransport.text : MqttTransport → String
  | tcp => "tcp"
  | tls => "tls"
  | ws => "ws"
  | wss => "wss"

def MqttTransport.encrypted (t : MqttTransport) : Bool := t = tls || t = wss

def MqttTransport.webSocket (t : MqttTransport) : Bool := t = ws || t = wss

structure MqttDraft extends Credentials where
  endpoints : String
  protocol : MqttProtocol
  transport : MqttTransport
  wsPath : String
  clientID : String
  keepAliveSec : Whole
  cleanStart : Bool
  sessionExpirySec : Whole
  mechanism : MqttMechanism
  username : String
  password : String
  tlsCAFile : String
  tlsSkipVerify : Bool
  managementURL : String
  managementKey : String
  managementSecret : String

def mqttSubmission (draft : MqttDraft) : Submission :=
  let authenticating : Bool := draft.mechanism ≠ .none
  let username := if authenticating then jsTrim draft.username else ""
  let password := if authenticating then jsTrim draft.password else ""
  let managementURL := jsTrim draft.managementURL
  let managementKey := if managementURL = "" then "" else jsTrim draft.managementKey
  let managementSecret := if managementURL = "" then "" else jsTrim draft.managementSecret
  let encrypted := draft.transport.encrypted
  { draft := {
      name := jsTrim draft.name
      group := draft.group
      kind := kindMQTT
      endpoints := jsTrim draft.endpoints
      timeoutSec := draft.timeoutSec
      authMechanism := if authenticating then authPlain else authNone
      options := record [
        (optionMqttProtocol, draft.protocol.text),
        (optionMqttTransport, draft.transport.text),
        -- A path only means anything over WebSocket.
        (optionMqttWSPath, if draft.transport.webSocket then jsTrim draft.wsPath else ""),
        (optionMqttClientID, jsTrim draft.clientID),
        (optionMqttKeepAlive, draft.keepAliveSec.text),
        (optionMqttCleanStart, flagText draft.cleanStart),
        (optionMqttSessionExpiry,
          if draft.protocol = .v5 then draft.sessionExpirySec.text else "0"),
        (optionMqttTLSCAFile, if encrypted then jsTrim draft.tlsCAFile else ""),
        (optionMqttTLSSkipVerify, flagText (encrypted && draft.tlsSkipVerify)),
        (optionMqttManagementURL, managementURL)]
      secrets := record [
        ("username", username),
        ("password", password),
        ("managementApiKey", managementKey),
        ("managementSecretKey", managementSecret)]
      remark := draft.remark }
    credentialsMode := draft.keepingMode }

/-! ### NATS -/

@[simp] def optionNatsTLS : String := "tls"
@[simp] def optionNatsTLSCAFile : String := "tlsCaFile"
@[simp] def optionNatsTLSCertFile : String := "tlsCertFile"
@[simp] def optionNatsTLSKeyFile : String := "tlsKeyFile"
@[simp] def optionNatsTLSSkipVerify : String := "tlsSkipVerify"
@[simp] def optionNatsMonitorURL : String := "monitorUrl"
@[simp] def optionNatsJSDomain : String := "jsDomain"
@[simp] def optionNatsCredsFile : String := "credsFile"

inductive NatsMechanism where
  | none
  | plain
  | token
  | nkey
  | creds
  | mtls
deriving DecidableEq

def NatsMechanism.stored : NatsMechanism → AuthMechanism
  | none => authNone
  | plain => authPlain
  | token => authToken
  | nkey => authNKey
  | creds => authCreds
  | mtls => authMutualTLS

structure NatsDraft extends Credentials where
  endpoints : String
  mechanism : NatsMechanism
  username : String
  password : String
  token : String
  nkeySeed : String
  credsFile : String
  tls : Bool
  tlsCAFile : String
  tlsCertFile : String
  tlsKeyFile : String
  tlsSkipVerify : Bool
  monitorURL : String
  systemUser : String
  systemPassword : String
  jsDomain : String

def natsSubmission (draft : NatsDraft) : Submission :=
  let mechanism := draft.mechanism
  let encrypted : Bool := draft.tls || mechanism = .mtls
  { draft := {
      name := jsTrim draft.name
      group := draft.group
      kind := kindNATS
      endpoints := jsTrim draft.endpoints
      timeoutSec := draft.timeoutSec
      authMechanism := mechanism.stored
      options := record [
        (optionNatsTLS, flagText draft.tls),
        (optionNatsTLSCAFile, if encrypted then jsTrim draft.tlsCAFile else ""),
        (optionNatsTLSSkipVerify, flagText (encrypted && draft.tlsSkipVerify)),
        (optionNatsTLSCertFile, if mechanism = .mtls then jsTrim draft.tlsCertFile else ""),
        (optionNatsTLSKeyFile, if mechanism = .mtls then jsTrim draft.tlsKeyFile else ""),
        (optionNatsCredsFile, if mechanism = .creds then jsTrim draft.credsFile else ""),
        (optionNatsMonitorURL, jsTrim draft.monitorURL),
        (optionNatsJSDomain, jsTrim draft.jsDomain)]
      secrets := record [
        ("username", if mechanism = .plain then jsTrim draft.username else ""),
        ("password", if mechanism = .plain then jsTrim draft.password else ""),
        ("token", if mechanism = .token then jsTrim draft.token else ""),
        ("nkeySeed", if mechanism = .nkey then jsTrim draft.nkeySeed else ""),
        ("systemUser", jsTrim draft.systemUser),
        ("systemPassword", jsTrim draft.systemPassword)]
      remark := draft.remark }
    credentialsMode := draft.keepingMode }

/-! ### Pulsar -/

@[simp] def optionPulsarAdminURL : String := "adminUrl"
@[simp] def optionPulsarTenant : String := "tenant"
@[simp] def optionPulsarNamespace : String := "namespace"
@[simp] def optionPulsarTLS : String := "tls"
@[simp] def optionPulsarTLSCAFile : String := "tlsCaFile"
@[simp] def optionPulsarTLSSkipVerify : String := "tlsSkipVerify"

inductive PulsarAuth where
  | none
  | token
deriving DecidableEq

structure PulsarDraft extends Credentials where
  service : String
  admin : String
  tenant : String
  ns : String
  auth : PulsarAuth
  token : String
  tls : Bool
  tlsCAFile : String
  tlsSkipVerify : Bool

def pulsarSubmission (draft : PulsarDraft) : Submission :=
  let authenticating : Bool := draft.auth ≠ .none
  let token := if authenticating then jsTrim draft.token else ""
  let typed : Bool := token ≠ ""
  let keepStored := authenticating && draft.keepStored
  { draft := {
      name := jsTrim draft.name
      group := draft.group
      kind := kindPulsar
      endpoints := jsTrim draft.service
      timeoutSec := draft.timeoutSec
      authMechanism := if authenticating then authToken else authNone
      options := record [
        (optionPulsarAdminURL, jsTrim draft.admin),
        (optionPulsarTenant, jsTrim draft.tenant),
        (optionPulsarNamespace, jsTrim draft.ns),
        (optionPulsarTLS, flagText draft.tls),
        (optionPulsarTLSCAFile, if draft.tls then jsTrim draft.tlsCAFile else ""),
        (optionPulsarTLSSkipVerify, flagText (draft.tls && draft.tlsSkipVerify))]
      secrets := record [("token", token)]
      remark := draft.remark }
    credentialsMode :=
      if !authenticating || draft.clearCredentials then .clear
      else if typed || !keepStored then .replace
      else .preserve }

/-! ### ActiveMQ -/

@[simp] def optionActiveMQJolokiaPath : String := "jolokiaPath"
@[simp] def optionActiveMQBrokerName : String := "brokerName"
@[simp] def optionActiveMQOrigin : String := "originHeader"
@[simp] def optionActiveMQAMQPURL : String := "amqpUrl"
@[simp] def optionActiveMQTLSSkipVerify : String := "tlsSkipVerify"

abbrev ActiveMQMechanism := UserMechanism

structure ActiveMQDraft extends Credentials where
  endpoints : String
  mechanism : ActiveMQMechanism
  username : String
  password : String
  jolokiaPath : String
  brokerName : String
  originHeader : String
  tlsSkipVerify : Bool
  amqpURL : String
  amqpUsername : String
  amqpPassword : String

def activeMQSubmission (draft : ActiveMQDraft) : Submission :=
  let mechanism := draft.mechanism
  let amqpURL := jsTrim draft.amqpURL
  { draft := {
      name := jsTrim draft.name
      group := draft.group
      kind := kindActiveMQ
      endpoints := jsTrim draft.endpoints
      timeoutSec := draft.timeoutSec
      authMechanism := mechanism.stored
      options := record [
        (optionActiveMQJolokiaPath, jsTrim draft.jolokiaPath),
        (optionActiveMQBrokerName, jsTrim draft.brokerName),
        (optionActiveMQOrigin, jsTrim draft.originHeader),
        (optionActiveMQAMQPURL, amqpURL),
        (optionActiveMQTLSSkipVerify, flagText draft.tlsSkipVerify)]
      secrets := record [
        ("username", if mechanism = .plain then jsTrim draft.username else ""),
        ("password", if mechanism = .plain then jsTrim draft.password else ""),
        -- Dropped with the address they belong to.
        ("amqpUsername", if amqpURL = "" then "" else jsTrim draft.amqpUsername),
        ("amqpPassword", if amqpURL = "" then "" else jsTrim draft.amqpPassword)]
      remark := draft.remark }
    credentialsMode := draft.keepingMode }

/-! ### NSQ -/

@[simp] def optionNsqLookupd : String := "lookupdEndpoints"
@[simp] def optionNsqTLSSkipVerify : String := "tlsSkipVerify"

/-- NSQ stores no credential. -/
structure NsqDraft extends Labels where
  endpoints : String
  lookupdEndpoints : String
  tlsSkipVerify : Bool

def nsqSubmission (draft : NsqDraft) : Submission where
  draft := {
    name := jsTrim draft.name
    group := draft.group
    kind := kindNSQ
    endpoints := jsTrim draft.endpoints
    timeoutSec := draft.timeoutSec
    authMechanism := authNone
    options := record [
      (optionNsqLookupd, jsTrim draft.lookupdEndpoints),
      (optionNsqTLSSkipVerify, flagText draft.tlsSkipVerify)]
    secrets := record []
    remark := draft.remark }
  credentialsMode := .replace

/-! ### Amazon SQS -/

@[simp] def optionSqsRegion : String := "region"
@[simp] def optionSqsQueuePrefix : String := "queuePrefix"
@[simp] def optionSqsEndpointURL : String := "endpointUrl"

structure SqsDraft extends Credentials where
  region : String
  accessKeyID : String
  secretAccessKey : String
  sessionToken : String
  queuePrefix : String
  endpointURL : String

def sqsSubmission (draft : SqsDraft) : Submission :=
  let accessKeyID := jsTrim draft.accessKeyID
  let secretAccessKey := jsTrim draft.secretAccessKey
  let sessionToken := jsTrim draft.sessionToken
  let typed := accessKeyID ≠ "" || secretAccessKey ≠ "" || sessionToken ≠ ""
  { draft := {
      name := jsTrim draft.name
      group := draft.group
      kind := kindSQS
      endpoints := ""
      timeoutSec := draft.timeoutSec
      authMechanism := if typed || draft.keepStored then authPlain else authNone
      options := record [
        (optionSqsRegion, jsTrim draft.region),
        (optionSqsQueuePrefix, jsTrim draft.queuePrefix),
        (optionSqsEndpointURL, jsTrim draft.endpointURL)]
      secrets := record [
        ("awsAccessKeyId", accessKeyID),
        ("awsSecretAccessKey", secretAccessKey),
        ("awsSessionToken", sessionToken)]
      remark := draft.remark }
    credentialsMode := draft.keepingMode }

/-! ### Google Pub/Sub -/

@[simp] def optionPubSubProjectID : String := "projectId"
@[simp] def optionPubSubEmulatorHost : String := "emulatorHost"
@[simp] def optionPubSubResourcePrefix : String := "resourcePrefix"

structure GooglePubSubDraft extends Credentials where
  projectID : String
  credentialsJSON : String
  resourcePrefix : String
  emulatorHost : String

def googlePubSubSubmission (draft : GooglePubSubDraft) : Submission :=
  let credentials := jsTrim draft.credentialsJSON
  { draft := {
      name := jsTrim draft.name
      group := draft.group
      kind := kindGooglePubSub
      endpoints := ""
      timeoutSec := draft.timeoutSec
      authMechanism := if credentials ≠ "" || draft.keepStored then authPlain else authNone
      options := record [
        (optionPubSubProjectID, jsTrim draft.projectID),
        (optionPubSubResourcePrefix, jsTrim draft.resourcePrefix),
        (optionPubSubEmulatorHost, jsTrim draft.emulatorHost)]
      secrets := record [("googleCredentialsJson", credentials)]
      remark := draft.remark }
    credentialsMode := draft.keepingMode }

/-! ### Azure Service Bus -/

@[simp] def optionSBKeyName : String := "sharedAccessKeyName"
@[simp] def optionSBEmulatorManagement : String := "emulatorManagementHost"
@[simp] def optionSBEntityPrefix : String := "entityPrefix"

structure AzureServiceBusDraft extends Credentials where
  endpoints : String
  keyName : String
  sharedAccessKey : String
  connectionString : String
  entityPrefix : String
  emulatorManagement : String

def azureServiceBusSubmission (draft : AzureServiceBusDraft) : Submission :=
  let key := jsTrim draft.sharedAccessKey
  let connectionString := jsTrim draft.connectionString
  let given := key ≠ "" || connectionString ≠ "" || draft.keepStored
  { draft := {
      name := jsTrim draft.name
      group := draft.group
      kind := kindAzureServiceBus
      endpoints := jsTrim draft.endpoints
      timeoutSec := draft.timeoutSec
      authMechanism := if given then authPlain else authNone
      options := record [
        (optionSBKeyName, jsTrim draft.keyName),
        (optionSBEntityPrefix, jsTrim draft.entityPrefix),
        (optionSBEmulatorManagement, jsTrim draft.emulatorManagement)]
      secrets := record [
        ("azureSharedAccessKey", key),
        ("azureConnectionString", connectionString)]
      remark := draft.remark }
    credentialsMode := draft.keepingMode }

/-! ### Amazon Kinesis -/

@[simp] def optionKinesisRegion : String := "region"
@[simp] def optionKinesisStreamPrefix : String := "streamPrefix"
@[simp] def optionKinesisEndpointURL : String := "endpointUrl"

structure KinesisDraft extends Credentials where
  region : String
  accessKeyID : String
  secretAccessKey : String
  sessionToken : String
  streamPrefix : String
  endpointURL : String

def kinesisSubmission (draft : KinesisDraft) : Submission :=
  let accessKeyID := jsTrim draft.accessKeyID
  let secretAccessKey := jsTrim draft.secretAccessKey
  let sessionToken := jsTrim draft.sessionToken
  let typed := accessKeyID ≠ "" || secretAccessKey ≠ "" || sessionToken ≠ ""
  { draft := {
      name := jsTrim draft.name
      group := draft.group
      kind := kindKinesis
      endpoints := ""
      timeoutSec := draft.timeoutSec
      authMechanism := if typed || draft.keepStored then authPlain else authNone
      options := record [
        (optionKinesisRegion, jsTrim draft.region),
        (optionKinesisStreamPrefix, jsTrim draft.streamPrefix),
        (optionKinesisEndpointURL, jsTrim draft.endpointURL)]
      secrets := record [
        ("awsAccessKeyId", accessKeyID),
        ("awsSecretAccessKey", secretAccessKey),
        ("awsSessionToken", sessionToken)]
      remark := draft.remark }
    credentialsMode := draft.keepingMode }

/-! ### IBM MQ -/

@[simp] def optionIbmMQQueueManager : String := "queueManager"
@[simp] def optionIbmMQTLSSkipVerify : String := "tlsSkipVerify"

abbrev IbmMQMechanism := UserMechanism

structure IbmMQDraft extends Credentials where
  endpoints : String
  mechanism : IbmMQMechanism
  username : String
  password : String
  queueManager : String
  messagingUsername : String
  messagingPassword : String
  tlsSkipVerify : Bool

def ibmMQSubmission (draft : IbmMQDraft) : Submission :=
  let authenticated : Bool := draft.mechanism = .plain
  { draft := {
      name := jsTrim draft.name
      group := draft.group
      kind := kindIBMMQ
      endpoints := jsTrim draft.endpoints
      timeoutSec := draft.timeoutSec
      authMechanism := draft.mechanism.stored
      options := record [
        (optionIbmMQQueueManager, jsTrim draft.queueManager),
        (optionIbmMQTLSSkipVerify, flagText draft.tlsSkipVerify)]
      secrets := record [
        ("username", if authenticated then jsTrim draft.username else ""),
        ("password", if authenticated then jsTrim draft.password else ""),
        ("messagingUsername", if authenticated then jsTrim draft.messagingUsername else ""),
        ("messagingPassword", if authenticated then jsTrim draft.messagingPassword else "")]
      remark := draft.remark }
    credentialsMode := draft.keepingMode }

/-! ### Solace -/

@[simp] def optionSolaceMsgVPN : String := "msgVpn"
@[simp] def optionSolaceRestURL : String := "restUrl"
@[simp] def optionSolaceTLSSkipVerify : String := "tlsSkipVerify"

abbrev SolaceMechanism := UserMechanism

structure SolaceDraft extends Credentials where
  endpoints : String
  mechanism : SolaceMechanism
  username : String
  password : String
  msgVPN : String
  restURL : String
  restUsername : String
  restPassword : String
  tlsSkipVerify : Bool

def solaceSubmission (draft : SolaceDraft) : Submission :=
  let authenticated : Bool := draft.mechanism = .plain
  { draft := {
      name := jsTrim draft.name
      group := draft.group
      kind := kindSolace
      endpoints := jsTrim draft.endpoints
      timeoutSec := draft.timeoutSec
      authMechanism := draft.mechanism.stored
      options := record [
        (optionSolaceMsgVPN, jsTrim draft.msgVPN),
        (optionSolaceRestURL, jsTrim draft.restURL),
        (optionSolaceTLSSkipVerify, flagText draft.tlsSkipVerify)]
      secrets := record [
        ("username", if authenticated then jsTrim draft.username else ""),
        ("password", if authenticated then jsTrim draft.password else ""),
        ("restUsername", jsTrim draft.restUsername),
        ("restPassword", jsTrim draft.restPassword)]
      remark := draft.remark }
    credentialsMode := draft.keepingMode }

/-! ### Every family -/

/-- One protocol's form state. -/
inductive ProtocolDraft where
  | rocketMQ (value : RocketMQDraft)
  | rabbitMQ (value : RabbitMQDraft)
  | kafka (value : KafkaDraft)
  | pulsar (value : PulsarDraft)
  | redis (value : RedisDraft)
  | mqtt (value : MqttDraft)
  | nats (value : NatsDraft)
  | activeMQ (value : ActiveMQDraft)
  | nsq (value : NsqDraft)
  | sqs (value : SqsDraft)
  | googlePubSub (value : GooglePubSubDraft)
  | azureServiceBus (value : AzureServiceBusDraft)
  | kinesis (value : KinesisDraft)
  | ibmMQ (value : IbmMQDraft)
  | solace (value : SolaceDraft)

def toSubmission : ProtocolDraft → Submission
  | .rabbitMQ value => rabbitMQSubmission value
  | .kafka value => kafkaSubmission value
  | .pulsar value => pulsarSubmission value
  | .redis value => redisSubmission value
  | .mqtt value => mqttSubmission value
  | .nats value => natsSubmission value
  | .activeMQ value => activeMQSubmission value
  | .nsq value => nsqSubmission value
  | .sqs value => sqsSubmission value
  | .googlePubSub value => googlePubSubSubmission value
  | .azureServiceBus value => azureServiceBusSubmission value
  | .kinesis value => kinesisSubmission value
  | .ibmMQ value => ibmMQSubmission value
  | .solace value => solaceSubmission value
  | .rocketMQ value => rocketMQSubmission value

end MqStudio.Form
