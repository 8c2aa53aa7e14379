import MqStudio.Lib.JavaScript
import MqStudio.Lib.Json.RoundTrip
import MqStudio.Lib.MapFold
import MqStudio.Lib.Words
import MqStudio.Sqs.Message

/-!
# SQS queues and their dialog

`sqs/destination.go`, `sqs/destination_admin.go` and `sqs/queue_actions.go`: how a queue is shown
and what an edit of it sends.  `mq/sqs/names.ts`, `mq/sqs/destinations.ts` and
`QueueDialogSqs.tsx`: the dialog that is opened with the queue and submits the edit.

* `destinationOf`, `queue`, `draftOf`: from the stored attributes to what the dialog holds.
* `Draft.edit`, `submit`: what can be done in the dialog, and what it sends.
* `QueueSpec.spec`, `attributesOf`, `updateDestination`: from there to the service.
-/

namespace MqStudio.Sqs.Queue

open Std (ExtTreeMap)
open Lib.JavaScript Lib.Json Lib.Maps Lib.Text

abbrev Attributes := ExtTreeMap String String compare

/-! ### Names -/

def nameMax : ℕ := 80

def fifoSuffix : String := ".fifo"

def hasFifoSuffix (name : String) : Bool := fifoSuffix.toList.isSuffixOf name.toList

/-- The length of a string of the frontend. -/
def jsLength (s : String) : ℕ := (s.toList.map fun c => if c.toNat < 0x10000 then 1 else 2).sum

inductive NameProblem where
  | empty
  | tooLong
  | charset

def isFifoName (typed : String) : Bool := hasFifoSuffix (jsTrim typed)

/-- A letter, a digit, a hyphen or an underscore. -/
def isNameChar (c : Char) : Bool := c.isAlphanum || c == '_' || c == '-'

/-- A name without the suffix. -/
def stem (name : String) : List Char :=
  if isFifoName name then name.toList.take (name.length - fifoSuffix.length) else name.toList

def nameProblem (typed : String) : Option NameProblem :=
  let name := jsTrim typed
  if name = "" then some .empty
  else if nameMax < jsLength name then some .tooLong
  else if stem name = [] then some .empty
  else if !(stem name).all isNameChar then some .charset
  else none

def submittableName (typed : String) : Option String :=
  match nameProblem typed with
  | none => some (jsTrim typed)
  | some _ => none

/-- The names that the service gives queues. -/
structure IsName (name : String) : Prop where
  usable : nameProblem name = none
  trimmed : jsTrim name = name

/-- The name at the end of a URL or an ARN. -/
def queueNameOf (identifier : String) : String :=
  let trimmed := (trimSpace identifier).toList.rdropWhile (· == '/')
  String.ofList (trimmed.rtakeWhile fun c => c != '/' && c != ':')

def isFIFO (name : String) : Bool := hasFifoSuffix name

/-! ### The settings -/

theorem zero_safe : 0 ≤ 2 ^ 53 := by decide

theorem five_safe : 5 ≤ 2 ^ 53 := by decide

theorem thirty_safe : 30 ≤ 2 ^ 53 := by decide

/-- The settings that are numbers. -/
inductive Setting where
  | visibilityTimeout
  | delay
  | retention
  | maxMessageBytes
  | receiveWait
deriving DecidableEq

namespace Setting

def all : List Setting := [visibilityTimeout, delay, retention, maxMessageBytes, receiveWait]

theorem mem_all (s : Setting) : s ∈ all := by cases s <;> decide

/-- The key that the setting travels under. -/
def key : Setting → String
  | visibilityTimeout => "visibilityTimeoutSec"
  | delay => "delaySec"
  | retention => "retentionSec"
  | maxMessageBytes => "maxMessageBytes"
  | receiveWait => "receiveWaitSec"

/-- The name that the service has for the setting. -/
def apiName : Setting → String
  | visibilityTimeout => "VisibilityTimeout"
  | delay => "DelaySeconds"
  | retention => "MessageRetentionPeriod"
  | maxMessageBytes => "MaximumMessageSize"
  | receiveWait => "ReceiveMessageWaitTimeSeconds"

/-- What the dialog shows where the queue says nothing. -/
def fallback : Setting → Whole
  | visibilityTimeout => .small 30 thirty_safe
  | delay => .small 0 zero_safe
  | retention => .small 345600 (by decide)
  | maxMessageBytes => .small 262144 (by decide)
  | receiveWait => .small 0 zero_safe

/-- The least and the greatest value that the service documents. -/
def range : Setting → ℕ × ℕ
  | visibilityTimeout => (0, 43200)
  | delay => (0, 900)
  | retention => (60, 1209600)
  | maxMessageBytes => (1024, 1048576)
  | receiveWait => (0, 20)

def Allows (s : Setting) (n : ℕ) : Prop := s.range.1 ≤ n ∧ n ≤ s.range.2

instance (s : Setting) (n : ℕ) : Decidable (s.Allows n) := inferInstanceAs (Decidable (_ ∧ _))

end Setting

def AttrURL : String := "url"
def AttrARN : String := "arn"
def AttrFIFO : String := "fifo"
def AttrVisible : String := "visible"
def AttrInFlight : String := "inFlight"
def AttrDelayed : String := "delayed"
def AttrCreatedAt : String := "createdAt"
def AttrModifiedAt : String := "modifiedAt"
def AttrDeadLetterQueue : String := "deadLetterQueue"
def AttrMaxReceiveCount : String := "maxReceiveCount"
def AttrEncrypted : String := "encrypted"
def AttrContentDedup : String := "contentBasedDeduplication"
def AttrDedupScope : String := "deduplicationScope"
def AttrThroughputLimit : String := "fifoThroughputLimit"

def boolAttr (value : Bool) : String := if value then "true" else "false"

/-! ### Redrive policies -/

structure RedrivePolicy where
  deadLetterTargetArn : String
  maxReceiveCount : Option Value

def RedrivePolicy.members : List (Member RedrivePolicy) := [
  .of "deadLetterTargetArn" .string decodeString (·.deadLetterTargetArn)
    fun p arn => { p with deadLetterTargetArn := arn },
  .of "maxReceiveCount" (·.getD .null) (fun _ v => (some v, true)) (·.maxReceiveCount)
    fun p count => { p with maxReceiveCount := count }]

/-- A number that may be quoted.  The service stores no other kind of value. -/
def looseNumber : Option Value → String
  | none => ""
  | some .null => ""
  | some (.string quoted) => quoted
  | some (.number n) => String.ofList n.lit
  | some v => marshal v

/-- The target and the limit of a policy that has a target. -/
def policyOf (raw : String) : Option (String × String) :=
  if trimSpace raw = "" then none
  else
    match parse raw with
    | none => none
    | some v =>
      let read := decodeStruct RedrivePolicy.members ⟨"", none⟩ v
      if read.2 = false then none
      else if read.1.deadLetterTargetArn = "" then none
      else some (read.1.deadLetterTargetArn, looseNumber read.1.maxReceiveCount)

def redriveOf (raw : String) : Option (String × String) :=
  (policyOf raw).map fun (arn, maxReceives) => (queueNameOf arn, maxReceives)

/-! ### What is shown of a queue -/

structure Destination where
  name : String
  depth : Int
  attributes : Attributes

/-- An attribute; one that is not there is blank. -/
def attr (attributes : Attributes) (key : String) : String := (attributes[key]?).getD ""

def numberAttr (attributes : Attributes) (key : String) : Int :=
  (Lib.Strconv.parseInt 64 (trimSpace (attr attributes key)).toList).getD 0

def formatBool (b : Bool) : String := boolAttr b

def destinationOf (url : String) (attributes : Attributes) : Destination :=
  let name := queueNameOf url
  let visible := numberAttr attributes "ApproximateNumberOfMessages"
  let inFlight := numberAttr attributes "ApproximateNumberOfMessagesNotVisible"
  let delayed := numberAttr attributes "ApproximateNumberOfMessagesDelayed"
  let collected : Attributes := [
    (AttrURL, url),
    (AttrARN, attr attributes "QueueArn"),
    (AttrFIFO, formatBool (isFIFO name)),
    (AttrVisible, toString visible),
    (AttrInFlight, toString inFlight),
    (AttrDelayed, toString delayed),
    (Setting.visibilityTimeout.key, attr attributes "VisibilityTimeout"),
    (Setting.delay.key, attr attributes "DelaySeconds"),
    (Setting.retention.key, attr attributes "MessageRetentionPeriod"),
    (Setting.maxMessageBytes.key, attr attributes "MaximumMessageSize"),
    (Setting.receiveWait.key, attr attributes "ReceiveMessageWaitTimeSeconds"),
    (AttrCreatedAt, attr attributes "CreatedTimestamp"),
    (AttrModifiedAt, attr attributes "LastModifiedTimestamp"),
    (AttrEncrypted, formatBool (attr attributes "SqsManagedSseEnabled" == "true" ||
      attr attributes "KmsMasterKeyId" != ""))].foldl (fun m e => m.insert e.1 e.2) ∅
  let collected :=
    match redriveOf (attr attributes "RedrivePolicy") with
    | some (target, maxReceives) =>
      (collected.insert AttrDeadLetterQueue target).insert AttrMaxReceiveCount maxReceives
    | none => collected
  let collected := [
    (AttrContentDedup, "ContentBasedDeduplication"),
    (AttrDedupScope, "DeduplicationScope"),
    (AttrThroughputLimit, "FifoThroughputLimit")].foldl (fun m e =>
      if attr attributes e.2 ≠ "" then m.insert e.1 (attr attributes e.2) else m) collected
  ⟨name, visible + inFlight + delayed, collected⟩

structure SqsQueue where
  name : String
  fifo : Bool
  numbers : Setting → Option Whole
  deadLetterQueue : Option String
  maxReceiveCount : Option Whole
  contentBasedDeduplication : Option Bool

def text (row : Destination) (key : String) : Option String :=
  (row.attributes[key]?).filter (· ≠ "")

/-- `Number` of a text of digits, as which the service writes its numbers. -/
def digitsNumber (value : String) : Option Whole :=
  if value.toList.all Char.isDigit then
    match ofSigned false (Nat.ofDigitChars 10 value.toList 0) with
    | .finite n exact bounded => some (.finite n exact bounded)
    | .infinity _ => none
  else none

def number (row : Destination) (key : String) : Option Whole := (text row key).bind digitsNumber

def flag (row : Destination) (key : String) : Option Bool := (text row key).map (· == "true")

def queue (row : Destination) : SqsQueue where
  name := row.name
  fifo := flag row AttrFIFO == some true
  numbers s := number row s.key
  deadLetterQueue := text row AttrDeadLetterQueue
  maxReceiveCount := number row AttrMaxReceiveCount
  contentBasedDeduplication := flag row AttrContentDedup

/-! ### The dialog -/

structure Draft where
  name : String
  fifo : Bool
  numbers : Setting → Whole
  deadLetterQueue : String
  maxReceiveCount : Whole
  contentBasedDeduplication : Bool

def draftOf (editing : SqsQueue) : Draft where
  name := editing.name
  fifo := editing.fifo
  numbers s := (editing.numbers s).getD s.fallback
  deadLetterQueue := editing.deadLetterQueue.getD ""
  maxReceiveCount := editing.maxReceiveCount.getD (.small 5 five_safe)
  contentBasedDeduplication := editing.contentBasedDeduplication.getD false

def numberField (raw : String) : Whole :=
  match parseInt raw with
  | none => .small 0 zero_safe
  | some parsed => if parsed.isNegative then .small 0 zero_safe else parsed

/-- What can be done in the dialog of a queue that is there: its name and its kind are fixed. -/
inductive Edit where
  | number (s : Setting) (raw : String)
  | deadLetterQueue (typed : String)
  | maxReceiveCount (raw : String)
  | contentBasedDeduplication (next : Bool)

def Draft.edit (draft : Draft) : Edit → Draft
  | .number s raw => { draft with numbers := Function.update draft.numbers s (numberField raw) }
  | .deadLetterQueue typed => { draft with deadLetterQueue := typed }
  | .maxReceiveCount raw => { draft with maxReceiveCount := numberField raw }
  | .contentBasedDeduplication next => { draft with contentBasedDeduplication := next }

structure SQSQueueInput where
  name : String
  fifo : Bool
  numbers : Setting → Whole
  deadLetterQueue : String
  maxReceiveCount : Whole
  contentBasedDeduplication : Bool
  deduplicationScope : String
  fifoThroughputLimit : String

def submit (draft : Draft) : Option SQSQueueInput :=
  (submittableName draft.name).map fun submitted => {
    name := submitted
    fifo := isFifoName submitted
    numbers := draft.numbers
    deadLetterQueue := jsTrim draft.deadLetterQueue
    maxReceiveCount := draft.maxReceiveCount
    contentBasedDeduplication := draft.contentBasedDeduplication
    deduplicationScope := ""
    fifoThroughputLimit := "" }

/-! ### The bridge -/

/-- A number as Go reads it: an infinity is written as `null`, which leaves a zero. -/
def goInt : Whole → Option Int
  | .finite n exact bounded =>
    Lib.Strconv.parseInt 64 (Whole.finite n exact bounded).text.toList
  | .infinity _ => some 0

structure QueueSpec where
  name : String
  fifo : Bool
  numbers : Setting → Int
  deadLetterQueue : String
  maxReceiveCount : Int
  contentBasedDeduplication : Bool
  deduplicationScope : String
  fifoThroughputLimit : String

/-- What the bridge makes of a submission; none where a number does not fit. -/
def SQSQueueInput.spec (input : SQSQueueInput) : Option QueueSpec :=
  if Setting.all.all fun s => (goInt (input.numbers s)).isSome then
    (goInt input.maxReceiveCount).map fun maxReceiveCount => {
      name := input.name
      fifo := input.fifo
      numbers s := (goInt (input.numbers s)).getD 0
      deadLetterQueue := input.deadLetterQueue
      maxReceiveCount
      contentBasedDeduplication := input.contentBasedDeduplication
      deduplicationScope := input.deduplicationScope
      fifoThroughputLimit := input.fifoThroughputLimit }
  else none

/-! ### The driver -/

structure DestinationSpec where
  name : String
  attributes : Attributes

def setPositive (attributes : Attributes) (key : String) (value : Int) : Attributes :=
  if 0 < value then attributes.insert key (toString value) else attributes

def QueueSpec.spec (q : QueueSpec) : DestinationSpec :=
  let number (attributes : Attributes) (s : Setting) := setPositive attributes s.key (q.numbers s)
  let attributes : Attributes := (∅ : Attributes).insert AttrFIFO (boolAttr q.fifo)
  let attributes := number attributes .visibilityTimeout
  let attributes := if 0 < q.numbers .delay then number attributes .delay else attributes
  let attributes := number attributes .retention
  let attributes := number attributes .maxMessageBytes
  let attributes :=
    if 0 < q.numbers .receiveWait then number attributes .receiveWait else attributes
  let attributes :=
    if trimSpace q.deadLetterQueue ≠ "" then
      setPositive (attributes.insert AttrDeadLetterQueue (trimSpace q.deadLetterQueue))
        AttrMaxReceiveCount q.maxReceiveCount
    else attributes
  let attributes :=
    if q.fifo then
      let attributes := attributes.insert AttrContentDedup (boolAttr q.contentBasedDeduplication)
      let attributes :=
        if q.deduplicationScope ≠ "" then attributes.insert AttrDedupScope q.deduplicationScope
        else attributes
      if q.fifoThroughputLimit ≠ "" then
        attributes.insert AttrThroughputLimit q.fifoThroughputLimit
      else attributes
    else attributes
  ⟨trimSpace q.name, attributes⟩

/-- The attributes that can be set, by the names that the service has for them, and their keys. -/
def settableAttributes : List (String × String) := [
  ("VisibilityTimeout", Setting.visibilityTimeout.key),
  ("DelaySeconds", Setting.delay.key),
  ("MessageRetentionPeriod", Setting.retention.key),
  ("MaximumMessageSize", Setting.maxMessageBytes.key),
  ("ReceiveMessageWaitTimeSeconds", Setting.receiveWait.key),
  ("ContentBasedDeduplication", AttrContentDedup),
  ("DeduplicationScope", AttrDedupScope),
  ("FifoThroughputLimit", AttrThroughputLimit)]

inductive UpdateError where
  | unusableName
  | numberTooLarge
  | lookup (err : BrowseError)
  | fixedAtCreation
  | deadLetterQueue (target : String) (err : UpdateError)
  | reportedNoARN (name : String)
  | notANumber (maxReceives : String)
  | nothingToChange
  | service (err : ServiceError)

/-- What the service is asked for. -/
inductive Request where
  | getQueueUrl (name : String)
  | getQueueAttributes (url : String)
  | setQueueAttributes (url : String) (sent : Attributes)

/-- The values that the service takes. -/
def accepts (sent : Attributes) : Bool :=
  Setting.all.all (fun s =>
    match sent[s.apiName]? with
    | some value =>
      match Lib.Strconv.parseInt 64 value.toList with
      | some n => decide (0 ≤ n ∧ s.Allows n.toNat)
      | none => false
    | none => true) &&
  match sent["RedrivePolicy"]? with
  | some raw =>
    match (policyOf raw).bind fun policy => Lib.Strconv.parseInt 64 policy.2.toList with
    | some limit => decide (1 ≤ limit ∧ limit ≤ 1000)
    | none => false
  | none => true

/-- The attributes of a queue of a name and an ARN, with any values that the service takes. -/
structure Stored (name arn : String) (attributes : Attributes) : Prop where
  arn : attributes["QueueArn"]? = some arn
  number : ∀ s : Setting, ∃ n : ℕ, attributes[s.apiName]? = some (toString n) ∧ s.Allows n
  redrive : ∀ raw, attributes["RedrivePolicy"]? = some raw →
    ∃ (account target : String) (limit : ℕ), IsName target ∧ 1 ≤ limit ∧ limit ≤ 1000 ∧
      policyOf raw = some (account ++ ":" ++ target, toString limit)
  deduplication : isFIFO name = true →
    ∃ b, attributes["ContentBasedDeduplication"]? = some (boolAttr b)

/-- The queues of an account, by their URLs, and what its service refuses for reasons of its own. -/
structure Account where
  endpoint : String
  resource : String
  refuse : Request → Option ServiceError
  queues : ExtTreeMap String Attributes compare
  stored : ∀ url attributes, queues[url]? = some attributes → ∃ name, IsName name ∧
    url = endpoint ++ "/" ++ name ∧ Stored name (resource ++ ":" ++ name) attributes

namespace Account

variable (a : Account)

def urlOf (name : String) : String := a.endpoint ++ "/" ++ name

def arnOf (name : String) : String := a.resource ++ ":" ++ name

def notThere : ServiceError := ⟨"the specified queue does not exist", true⟩

def invalidAttributeValue : ServiceError := ⟨"invalid attribute value", false⟩

def getQueueUrl (name : String) : Except ServiceError (Option String) :=
  match a.refuse (.getQueueUrl name) with
  | some err => .error err
  | none => if a.urlOf name ∈ a.queues then .ok (some (a.urlOf name)) else .error notThere

def getQueueAttributes (url : String) : Except ServiceError Attributes :=
  match a.refuse (.getQueueAttributes url), a.queues[url]? with
  | some err, _ => .error err
  | none, none => .error notThere
  | none, some attributes => .ok attributes

/-- What is sent replaces what was there under the same names, and nothing else. -/
def setQueueAttributes (url : String) (sent : Attributes) :
    Except ServiceError (ExtTreeMap String Attributes compare) :=
  match a.refuse (.setQueueAttributes url sent), a.queues[url]? with
  | some err, _ => .error err
  | none, none => .error notThere
  | none, some attributes =>
    if accepts sent then .ok (a.queues.insert url (attributes ∪ sent))
    else .error invalidAttributeValue

end Account

/-- A connection to an account.  It remembers URLs that it was given. -/
structure Session where
  conn : Conn
  account : Account
  answers : ∀ name, conn.getQueueUrl name = account.getQueueUrl name
  remembered : ∀ name url, conn.urls[name]? = some url → url = account.urlOf name

namespace Session

variable (c : Session)

def queueARN (name : String) : Except UpdateError String :=
  match c.conn.queueURL name with
  | .error err => .error (.lookup err)
  | .ok url =>
    match c.account.getQueueAttributes url with
    | .error err => .error (.service err)
    | .ok attributes =>
      let arn := attr attributes "QueueArn"
      if arn = "" then .error (.reportedNoARN name) else .ok arn

/-- The settings that a specification carries, by the names of the service. -/
def settingsOf (given : Attributes) : Attributes :=
  settableAttributes.foldl (fun attributes e =>
    match given[e.2]? with
    | some value =>
      if trimSpace value ≠ "" then attributes.insert e.1 (trimSpace value) else attributes
    | none => attributes) ∅

def attributesOf (spec : DestinationSpec) : Except UpdateError Attributes :=
  let attributes := settingsOf spec.attributes
  let target := trimSpace (attr spec.attributes AttrDeadLetterQueue)
  if target = "" then .ok attributes
  else
    match c.queueARN target with
    | .error err => .error (.deadLetterQueue target err)
    | .ok arn =>
      let given := trimSpace (attr spec.attributes AttrMaxReceiveCount)
      let maxReceives := if given = "" then "5" else given
      match Lib.Strconv.parseInt 64 maxReceives.toList with
      | none => .error (.notANumber maxReceives)
      | some _ =>
        let policy := marshal (encodeStruct RedrivePolicy.members ⟨arn, some (.string maxReceives)⟩)
        .ok (attributes.insert "RedrivePolicy" policy)

def updateDestination (spec : DestinationSpec) :
    Except UpdateError (ExtTreeMap String Attributes compare) :=
  if !c.conn.live then .error (.lookup .connectionDown)
  else
    match c.conn.queueURL spec.name with
    | .error err => .error (.lookup err)
    | .ok url =>
      if isFIFO spec.name != (attr spec.attributes AttrFIFO == "true") then
        .error .fixedAtCreation
      else
        match c.attributesOf spec with
        | .error err => .error err
        | .ok attributes =>
          if attributes.isEmpty then .error .nothingToChange
          else (c.account.setQueueAttributes url attributes).mapError .service

def updateQueue (q : QueueSpec) : Except UpdateError (ExtTreeMap String Attributes compare) :=
  c.updateDestination q.spec

/-- A draft submitted, from the dialog to the service. -/
def save (draft : Draft) : Except UpdateError (ExtTreeMap String Attributes compare) :=
  match submit draft with
  | none => .error .unusableName
  | some input =>
    match input.spec with
    | none => .error .numberTooLarge
    | some q => c.updateQueue q

end Session

end MqStudio.Sqs.Queue
