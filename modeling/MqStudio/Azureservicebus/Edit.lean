import MqStudio.Azureservicebus.Duration
import MqStudio.Lib.JavaScript
import MqStudio.Model.Attributes

/-!
# Saving what a Service Bus dialog was opened with

`azureservicebus/destination.go`, `destination_admin.go`, `entity_actions.go` for queues and topics
and `subscription.go`, `subscription_actions.go` for subscriptions; the dialogs
`EntityDialogAzureServiceBus.tsx` and `SubscriptionDialogAzureServiceBus.tsx` with what
`mq/azureservicebus` reads for them.

* `queueDestination`, `topicDestination`, `subscriptionOf`: what is shown.
* `updateDestination`, `updateSubscription`: the description that is read, changed and sent back.
* `Whole`: a timespan that is shown is a whole number of seconds.
* `SavedEntity.unchanged_iff`, `SavedSubscription.unchanged_iff`: which saves change nothing.
-/

namespace MqStudio.Azureservicebus.Edit

open Lib.JavaScript Lib.Text Model.Attributes

/-! ### Names -/

inductive NameScope where
  | entity
  | child

def ENTITY_MAX : ℕ := 260
def CHILD_MAX : ℕ := 50

def NameScope.max : NameScope → ℕ
  | entity => ENTITY_MAX
  | child => CHILD_MAX

/-- A letter, a digit or one of `._-~/`. -/
def isNameChar (c : Char) : Bool := c.isAlphanum || "._-~/".toList.contains c

inductive NameProblem where
  | empty
  | tooLong
  | reserved
  | separator
  | charset

def nameProblem (typed : String) (scope : NameScope) : Option NameProblem :=
  let name := (jsTrim typed).toList
  if name = [] then some .empty
  else if scope.max < jsLength (jsTrim typed) then some .tooLong
  else if name.head? = some '$' ∨ ['/', '$'] <:+: name then some .reserved
  else if name.head? = some '/' ∨ name.getLast? = some '/' ∨ ['/', '/'] <:+: name then
    some .separator
  else if !(name.head?.any Char.isAlphanum && name.all isNameChar) then some .charset
  else
    match scope with
    | .child => if '/' ∈ name then some .charset else none
    | .entity => none

def submittableName (typed : String) (scope : NameScope) : Option String :=
  match nameProblem typed scope with
  | none => some (jsTrim typed)
  | some _ => none

inductive EntityKind where
  | queue
  | topic
deriving DecidableEq

inductive Error where
  | connectionDown
  | cannotSubmit
  | numberTooLarge
  | noName (kind : String)
  | subEntity (kind name : String)
  | noTopic
  | missing (name : String)
  | otherKind (name : String) (stored wanted : EntityKind)
  | notANumber (label raw : String)
  | notPositive (label : String)
  | outside (label : String) (given : ℤ)
  | service (text : String)

def requiredName (kind name : String) : Except Error String :=
  let trimmed := trimSpace name
  if trimmed = "" then .error (.noName kind)
  else if trimmed.toList.head? = some '$' ∨ ['/', '$'] <:+: trimmed.toList then
    .error (.subEntity kind trimmed)
  else .ok trimmed

/-! ### Descriptions -/

/-- The settings in the description of a queue, a topic or a subscription, each as far as there is
one of its kind. -/
structure Properties where
  status : Option String := none
  lockDuration : Option String := none
  defaultMessageTimeToLive : Option String := none
  autoDeleteOnIdle : Option String := none
  maxDeliveryCount : Option ℤ := none
  maxSizeInMegabytes : Option ℤ := none
  requiresSession : Option Bool := none
  requiresDuplicateDetection : Option Bool := none
  deadLetteringOnMessageExpiration : Option Bool := none
  enableDeadLetteringOnFilterEvaluationExceptions : Option Bool := none
  enablePartitioning : Option Bool := none
  forwardTo : Option String := none
  forwardDeadLetteredMessagesTo : Option String := none

/-- Counts are numbers of 32 bits. -/
structure Properties.Valid (p : Properties) : Prop where
  deliveries : ∀ n, p.maxDeliveryCount = some n → Lib.Strconv.Fits 32 n
  size : ∀ n, p.maxSizeInMegabytes = some n → Lib.Strconv.Fits 32 n

/-- What a description says: a timespan is as long as it is, and an absent flag is off. -/
structure Settings where
  status : Option String
  lockDuration : Option ℚ
  defaultMessageTimeToLive : Option ℚ
  autoDeleteOnIdle : Option ℚ
  maxDeliveryCount : Option ℤ
  maxSizeInMegabytes : Option ℤ
  requiresSession : Bool
  requiresDuplicateDetection : Bool
  deadLetteringOnMessageExpiration : Bool
  enableDeadLetteringOnFilterEvaluationExceptions : Bool
  enablePartitioning : Bool
  forwardTo : String
  forwardDeadLetteredMessagesTo : String
deriving DecidableEq

def Properties.settings (p : Properties) : Settings where
  status := p.status
  lockDuration := p.lockDuration.bind isoExact
  defaultMessageTimeToLive := p.defaultMessageTimeToLive.bind isoExact
  autoDeleteOnIdle := p.autoDeleteOnIdle.bind isoExact
  maxDeliveryCount := p.maxDeliveryCount
  maxSizeInMegabytes := p.maxSizeInMegabytes
  requiresSession := p.requiresSession.getD false
  requiresDuplicateDetection := p.requiresDuplicateDetection.getD false
  deadLetteringOnMessageExpiration := p.deadLetteringOnMessageExpiration.getD false
  enableDeadLetteringOnFilterEvaluationExceptions :=
    p.enableDeadLetteringOnFilterEvaluationExceptions.getD false
  enablePartitioning := p.enablePartitioning.getD false
  forwardTo := p.forwardTo.getD ""
  forwardDeadLetteredMessagesTo := p.forwardDeadLetteredMessagesTo.getD ""

structure Entity where
  kind : EntityKind
  properties : Properties

/-! ### What is shown -/

/-- The attributes that the dialogs read and the updates take, under the same keys. -/
structure Attributes where
  entityType : Option String := none
  lockDurationSec : Option String := none
  maxDeliveryCount : Option String := none
  ttlSec : Option String := none
  autoDeleteOnIdleSec : Option String := none
  maxSizeMb : Option String := none
  requiresSession : Option String := none
  requiresDuplicateDetection : Option String := none
  deadLetterOnExpiry : Option String := none
  deadLetterOnRuleError : Option String := none
  partitioned : Option String := none
  forwardTo : Option String := none
  forwardDeadLettersTo : Option String := none

def EntityTopic : String := "topic"
def EntityQueue : String := "queue"

def boolOf (value : Option Bool) : String := formatBool (value.getD false)

/-- The seconds that are shown of a timespan. -/
def secondsOf (beyond : ℚ → ℤ) (value : Option String) : Option ℤ :=
  match value with
  | none => none
  | some text => if text = "" then none else isoSeconds beyond text

/-- `putDuration`. -/
def durationOf (beyond : ℚ → ℤ) (value : Option String) : Option String :=
  (secondsOf beyond value).map toString

/-- `putString`. -/
def stringOf (value : Option String) : Option String :=
  match value with
  | none => none
  | some text => if trimSpace text = "" then none else some (trimSpace text)

def queueDestination (beyond : ℚ → ℤ) (p : Properties) : Attributes where
  entityType := some EntityQueue
  requiresSession := some (boolOf p.requiresSession)
  requiresDuplicateDetection := some (boolOf p.requiresDuplicateDetection)
  deadLetterOnExpiry := some (boolOf p.deadLetteringOnMessageExpiration)
  partitioned := some (boolOf p.enablePartitioning)
  maxDeliveryCount := p.maxDeliveryCount.map toString
  maxSizeMb := p.maxSizeInMegabytes.map toString
  lockDurationSec := durationOf beyond p.lockDuration
  ttlSec := durationOf beyond p.defaultMessageTimeToLive
  autoDeleteOnIdleSec := durationOf beyond p.autoDeleteOnIdle
  forwardTo := stringOf p.forwardTo
  forwardDeadLettersTo := stringOf p.forwardDeadLetteredMessagesTo

def topicDestination (beyond : ℚ → ℤ) (p : Properties) : Attributes where
  entityType := some EntityTopic
  requiresDuplicateDetection := some (boolOf p.requiresDuplicateDetection)
  partitioned := some (boolOf p.enablePartitioning)
  maxSizeMb := p.maxSizeInMegabytes.map toString
  ttlSec := durationOf beyond p.defaultMessageTimeToLive
  autoDeleteOnIdleSec := durationOf beyond p.autoDeleteOnIdle

def subscriptionOf (beyond : ℚ → ℤ) (p : Properties) : Attributes where
  requiresSession := some (boolOf p.requiresSession)
  deadLetterOnExpiry := some (boolOf p.deadLetteringOnMessageExpiration)
  deadLetterOnRuleError := some (boolOf p.enableDeadLetteringOnFilterEvaluationExceptions)
  maxDeliveryCount := p.maxDeliveryCount.map toString
  lockDurationSec := durationOf beyond p.lockDuration
  ttlSec := durationOf beyond p.defaultMessageTimeToLive
  autoDeleteOnIdleSec := durationOf beyond p.autoDeleteOnIdle
  forwardTo := stringOf p.forwardTo
  forwardDeadLettersTo := stringOf p.forwardDeadLetteredMessagesTo

def Entity.destination (beyond : ℚ → ℤ) (e : Entity) : Attributes :=
  match e.kind with
  | .queue => queueDestination beyond e.properties
  | .topic => topicDestination beyond e.properties

/-! ### The dialogs -/

def LOCK_MIN_SEC : ℤ := 5
def LOCK_MAX_SEC : ℤ := 300
def DELIVERY_MIN : ℤ := 1
def DELIVERY_MAX : ℤ := 2000

def century : ℤ := 100 * 365 * 86400

def forever (seconds : Option ℤ) : Bool := seconds.any fun n => century < n

/-- The number that is drawn of a timespan: none for more than a century. -/
def spanOf (seconds : Option ℤ) : ℤ := if forever seconds then 0 else seconds.getD 0

def outOfRange (n low high : ℤ) : Bool := n ≠ 0 && (n < low || high < n)

structure EntityDraft where
  name : String
  kind : EntityKind
  lockDurationSec : ℤ
  maxDeliveryCount : ℤ
  ttlSec : ℤ
  autoDeleteOnIdleSec : ℤ
  deadLetterOnExpiry : Bool
  requiresSession : Bool
  requiresDuplicateDetection : Bool
  forwardTo : String
  forwardDeadLettersTo : String

def entityDraftOf (name : String) (row : Attributes) : EntityDraft where
  name := name
  kind := if text row.entityType = some "topic" then .topic else .queue
  lockDurationSec := (number row.lockDurationSec).getD 0
  maxDeliveryCount := (number row.maxDeliveryCount).getD 0
  ttlSec := spanOf (number row.ttlSec)
  autoDeleteOnIdleSec := spanOf (number row.autoDeleteOnIdleSec)
  deadLetterOnExpiry := flag row.deadLetterOnExpiry
  requiresSession := flag row.requiresSession
  requiresDuplicateDetection := flag row.requiresDuplicateDetection
  forwardTo := (text row.forwardTo).getD ""
  forwardDeadLettersTo := (text row.forwardDeadLettersTo).getD ""

structure EntitySpec where
  name : String
  kind : String
  lockDurationSec : ℤ
  maxDeliveryCount : ℤ
  ttlSec : ℤ
  autoDeleteOnIdleSec : ℤ
  maxSizeMB : ℤ
  deadLetterOnExpiry : Bool
  requiresSession : Bool
  requiresDuplicateDetection : Bool
  partitioned : Bool
  forwardTo : String
  forwardDeadLettersTo : String

def EntityKind.text : EntityKind → String
  | queue => EntityQueue
  | topic => EntityTopic

/-- What the entity dialog submits, as the bridge takes it. -/
def submitEntity (draft : EntityDraft) : Except Error EntitySpec :=
  let isQueue : Bool := draft.kind = .queue
  match submittableName draft.name .entity with
  | none => .error .cannotSubmit
  | some name =>
    if isQueue ∧ outOfRange draft.lockDurationSec LOCK_MIN_SEC LOCK_MAX_SEC ∨
        isQueue ∧ outOfRange draft.maxDeliveryCount DELIVERY_MIN DELIVERY_MAX then
      .error .cannotSubmit
    else
      match goInt (if isQueue then draft.lockDurationSec else 0),
        goInt (if isQueue then draft.maxDeliveryCount else 0), goInt draft.ttlSec,
        goInt draft.autoDeleteOnIdleSec with
      | some lockDurationSec, some maxDeliveryCount, some ttlSec, some autoDeleteOnIdleSec => .ok {
          name
          kind := draft.kind.text
          lockDurationSec
          maxDeliveryCount
          ttlSec
          autoDeleteOnIdleSec
          maxSizeMB := 0
          deadLetterOnExpiry := isQueue && draft.deadLetterOnExpiry
          requiresSession := isQueue && draft.requiresSession
          requiresDuplicateDetection := draft.requiresDuplicateDetection
          partitioned := false
          forwardTo := if isQueue then jsTrim draft.forwardTo else ""
          forwardDeadLettersTo := if isQueue then jsTrim draft.forwardDeadLettersTo else "" }
      | _, _, _, _ => .error .numberTooLarge

structure SubscriptionDraft where
  topic : String
  name : String
  lockDurationSec : ℤ
  maxDeliveryCount : ℤ
  ttlSec : ℤ
  deadLetterOnExpiry : Bool
  deadLetterOnRuleError : Bool
  requiresSession : Bool
  forwardDeadLettersTo : String

def subscriptionDraftOf (topic name : String) (row : Attributes) : SubscriptionDraft where
  topic := topic
  name := name
  lockDurationSec := (number row.lockDurationSec).getD 0
  maxDeliveryCount := (number row.maxDeliveryCount).getD 0
  ttlSec := spanOf (number row.ttlSec)
  deadLetterOnExpiry := flag row.deadLetterOnExpiry
  deadLetterOnRuleError := flag row.deadLetterOnRuleError
  requiresSession := flag row.requiresSession
  forwardDeadLettersTo := (text row.forwardDeadLettersTo).getD ""

structure SubscriptionSpec where
  topic : String
  name : String
  lockDurationSec : ℤ
  maxDeliveryCount : ℤ
  ttlSec : ℤ
  autoDeleteOnIdleSec : ℤ
  deadLetterOnExpiry : Bool
  deadLetterOnRuleError : Bool
  requiresSession : Bool
  forwardTo : String
  forwardDeadLettersTo : String

/-- What the subscription dialog submits, as the bridge takes it. -/
def submitSubscription (draft : SubscriptionDraft) : Except Error SubscriptionSpec :=
  match submittableName draft.name .child, submittableName draft.topic .entity with
  | some name, some topic =>
    if outOfRange draft.lockDurationSec LOCK_MIN_SEC LOCK_MAX_SEC ∨
        outOfRange draft.maxDeliveryCount DELIVERY_MIN DELIVERY_MAX then
      .error .cannotSubmit
    else
      match goInt draft.lockDurationSec, goInt draft.maxDeliveryCount, goInt draft.ttlSec with
      | some lockDurationSec, some maxDeliveryCount, some ttlSec => .ok {
          topic
          name
          lockDurationSec
          maxDeliveryCount
          ttlSec
          autoDeleteOnIdleSec := 0
          deadLetterOnExpiry := draft.deadLetterOnExpiry
          deadLetterOnRuleError := draft.deadLetterOnRuleError
          requiresSession := draft.requiresSession
          forwardTo := ""
          forwardDeadLettersTo := jsTrim draft.forwardDeadLettersTo }
      | _, _, _ => .error .numberTooLarge
  | _, _ => .error .cannotSubmit

/-! ### The updates -/

def EntitySpec.spec (s : EntitySpec) : String × Attributes :=
  (trimSpace s.name, {
    entityType := some (if trimSpace s.kind = EntityTopic then EntityTopic else EntityQueue)
    requiresSession := some (formatBool s.requiresSession)
    requiresDuplicateDetection := some (formatBool s.requiresDuplicateDetection)
    partitioned := some (formatBool s.partitioned)
    deadLetterOnExpiry := some (formatBool s.deadLetterOnExpiry)
    forwardTo := some (trimSpace s.forwardTo)
    forwardDeadLettersTo := some (trimSpace s.forwardDeadLettersTo)
    lockDurationSec := positive s.lockDurationSec
    maxDeliveryCount := positive s.maxDeliveryCount
    ttlSec := positive s.ttlSec
    autoDeleteOnIdleSec := positive s.autoDeleteOnIdleSec
    maxSizeMb := positive s.maxSizeMB })

def SubscriptionSpec.spec (s : SubscriptionSpec) : (String × String) × Attributes :=
  ((trimSpace s.topic, trimSpace s.name), {
    requiresSession := some (formatBool s.requiresSession)
    deadLetterOnExpiry := some (formatBool s.deadLetterOnExpiry)
    deadLetterOnRuleError := some (formatBool s.deadLetterOnRuleError)
    forwardTo := some (trimSpace s.forwardTo)
    forwardDeadLettersTo := some (trimSpace s.forwardDeadLettersTo)
    lockDurationSec := positive s.lockDurationSec
    maxDeliveryCount := positive s.maxDeliveryCount
    ttlSec := positive s.ttlSec
    autoDeleteOnIdleSec := positive s.autoDeleteOnIdleSec })

def entityKind (a : Attributes) : EntityKind :=
  if said a.entityType = EntityTopic then .topic else .queue

def minLockDurationSec : ℤ := 5
def maxLockDurationSec : ℤ := 300
def minDeliveryCount : ℤ := 1
def maxDeliveryCount : ℤ := 2000

def positiveSeconds (label : String) (value : Option String) : Except Error (Option ℤ) :=
  if said value = "" then .ok none
  else
    match atoi (said value) with
    | none => .error (.notANumber label (said value))
    | some seconds => if seconds ≤ 0 then .error (.notPositive label) else .ok (some seconds)

def boundedSeconds (label : String) (low high : ℤ) (value : Option String) :
    Except Error (Option ℤ) :=
  match positiveSeconds label value with
  | .error err => .error err
  | .ok none => .ok none
  | .ok (some seconds) =>
    if seconds < low ∨ high < seconds then .error (.outside label seconds) else .ok (some seconds)

/-- The delivery limit. -/
def deliveriesOf (value : Option String) : Except Error (Option ℤ) :=
  if said value = "" then .ok none
  else
    match atoi (said value) with
    | none => .error (.notANumber "delivery limit" (said value))
    | some count =>
      if count < minDeliveryCount ∨ maxDeliveryCount < count then
        .error (.outside "delivery limit" count)
      else .ok (some (Int.bmod count (2 ^ 32)))

/-- The maximum size. -/
def megabytesOf (value : Option String) : Except Error (Option ℤ) :=
  if said value = "" then .ok none
  else
    match atoi (said value) with
    | none => .error (.notANumber "maximum size" (said value))
    | some size => .ok (some (Int.bmod size (2 ^ 32)))

/-- A timespan that is written over another, where one is given. -/
def overwrite (seconds : Option ℤ) (stored : Option String) : Option String :=
  (seconds.map isoDuration).or stored

/-- Where to forward to, written over what is stored wherever it is mentioned. -/
def forwarding (value stored : Option String) : Option String := (value.map trimSpace).or stored

def applyQueueSettings (p : Properties) (a : Attributes) : Except Error Properties :=
  match boundedSeconds "lock duration" minLockDurationSec maxLockDurationSec a.lockDurationSec with
  | .error err => .error err
  | .ok lock =>
    match positiveSeconds "time to live" a.ttlSec with
    | .error err => .error err
    | .ok ttl =>
      match positiveSeconds "auto-delete on idle" a.autoDeleteOnIdleSec with
      | .error err => .error err
      | .ok idle =>
        match deliveriesOf a.maxDeliveryCount with
        | .error err => .error err
        | .ok count =>
          match megabytesOf a.maxSizeMb with
          | .error err => .error err
          | .ok size => .ok { p with
              lockDuration := overwrite lock p.lockDuration
              defaultMessageTimeToLive := overwrite ttl p.defaultMessageTimeToLive
              autoDeleteOnIdle := overwrite idle p.autoDeleteOnIdle
              maxDeliveryCount := count.or p.maxDeliveryCount
              maxSizeInMegabytes := size.or p.maxSizeInMegabytes
              deadLetteringOnMessageExpiration :=
                (saidFlag a.deadLetterOnExpiry).or p.deadLetteringOnMessageExpiration
              forwardTo := forwarding a.forwardTo p.forwardTo
              forwardDeadLetteredMessagesTo :=
                forwarding a.forwardDeadLettersTo p.forwardDeadLetteredMessagesTo }

def applyTopicSettings (p : Properties) (a : Attributes) : Except Error Properties :=
  match positiveSeconds "time to live" a.ttlSec with
  | .error err => .error err
  | .ok ttl =>
    match positiveSeconds "auto-delete on idle" a.autoDeleteOnIdleSec with
    | .error err => .error err
    | .ok idle =>
      match megabytesOf a.maxSizeMb with
      | .error err => .error err
      | .ok size => .ok { p with
          defaultMessageTimeToLive := overwrite ttl p.defaultMessageTimeToLive
          autoDeleteOnIdle := overwrite idle p.autoDeleteOnIdle
          maxSizeInMegabytes := size.or p.maxSizeInMegabytes }

def applySubscriptionSettings (p : Properties) (a : Attributes) : Except Error Properties :=
  match boundedSeconds "lock duration" minLockDurationSec maxLockDurationSec a.lockDurationSec with
  | .error err => .error err
  | .ok lock =>
    match positiveSeconds "time to live" a.ttlSec with
    | .error err => .error err
    | .ok ttl =>
      match positiveSeconds "auto-delete on idle" a.autoDeleteOnIdleSec with
      | .error err => .error err
      | .ok idle =>
        match deliveriesOf a.maxDeliveryCount with
        | .error err => .error err
        | .ok count => .ok { p with
            lockDuration := overwrite lock p.lockDuration
            defaultMessageTimeToLive := overwrite ttl p.defaultMessageTimeToLive
            autoDeleteOnIdle := overwrite idle p.autoDeleteOnIdle
            maxDeliveryCount := count.or p.maxDeliveryCount
            deadLetteringOnMessageExpiration :=
              (saidFlag a.deadLetterOnExpiry).or p.deadLetteringOnMessageExpiration
            enableDeadLetteringOnFilterEvaluationExceptions :=
              (saidFlag a.deadLetterOnRuleError).or
                p.enableDeadLetteringOnFilterEvaluationExceptions
            forwardTo := forwarding a.forwardTo p.forwardTo
            forwardDeadLetteredMessagesTo :=
              forwarding a.forwardDeadLettersTo p.forwardDeadLetteredMessagesTo }

/-- A connection to a namespace, with what it holds; the service may fail for reasons of its own. -/
structure Conn where
  live : Bool
  entities : String → Option Entity
  subscriptions : String → String → Option Properties
  beyond : ℚ → ℤ
  refuse : Option String

namespace Conn

variable (c : Conn)

/-- The read of a queue; a topic has nothing of what it looks for. -/
def getQueue (name : String) : Option Properties :=
  (c.entities name).map fun e => if e.kind = .queue then e.properties else {}

def getTopic (name : String) : Option Properties :=
  (c.entities name).map fun e => if e.kind = .topic then e.properties else {}

/-- A queue or a topic, whichever of the two has a status. -/
def describeEntity (name : String) : Option Entity :=
  match c.getQueue name with
  | some queue => if queue.status.isSome then some ⟨.queue, queue⟩ else topicOf
  | none => topicOf
where
  topicOf : Option Entity :=
    match c.getTopic name with
    | some topic => if topic.status.isSome then some ⟨.topic, topic⟩ else none
    | none => none

/-- The name of the entity, and what is sent for it. -/
def updateDestination (spec : String × Attributes) : Except Error (String × Entity) :=
  if !c.live then .error .connectionDown
  else
    match requiredName "entity" spec.1 with
    | .error err => .error err
    | .ok name =>
      match c.describeEntity name with
      | none => .error (.missing name)
      | some described =>
        if entityKind spec.2 ≠ described.kind then
          .error (.otherKind name described.kind (entityKind spec.2))
        else
          match (match described.kind with
            | .topic => applyTopicSettings described.properties spec.2
            | .queue => applyQueueSettings described.properties spec.2) with
          | .error err => .error err
          | .ok properties =>
            match c.refuse with
            | some text => .error (.service text)
            | none => .ok (name, ⟨described.kind, properties⟩)

def subscriptionParts (topic name : String) : Except Error (String × String) :=
  match requiredName "topic" topic with
  | .error _ => .error .noTopic
  | .ok topic =>
    match requiredName "subscription" name with
    | .error err => .error err
    | .ok name => .ok (topic, name)

/-- The topic and the name of the subscription, and what is sent for it. -/
def updateSubscription (spec : (String × String) × Attributes) :
    Except Error ((String × String) × Properties) :=
  if !c.live then .error .connectionDown
  else
    match subscriptionParts spec.1.1 spec.1.2 with
    | .error err => .error err
    | .ok (topic, name) =>
      match c.subscriptions topic name with
      | none => .error (.missing name)
      | some found =>
        match applySubscriptionSettings found spec.2 with
        | .error err => .error err
        | .ok properties =>
          match c.refuse with
          | some text => .error (.service text)
          | none => .ok ((topic, name), properties)

/-- A queue or a topic opened in the dialog and saved as it is. -/
def resaveEntity (name : String) (e : Entity) : Except Error (String × Entity) :=
  match submitEntity (entityDraftOf name (e.destination c.beyond)) with
  | .error err => .error err
  | .ok spec => c.updateDestination spec.spec

/-- A subscription opened in the dialog and saved as it is. -/
def resaveSubscription (topic name : String) (p : Properties) :
    Except Error ((String × String) × Properties) :=
  match submitSubscription (subscriptionDraftOf topic name (subscriptionOf c.beyond p)) with
  | .error err => .error err
  | .ok spec => c.updateSubscription spec.spec

end Conn

/-! ### Timespans -/

section Timespans

variable {beyond : ℚ → ℤ} {value : Option String}

/-- A timespan that is shown as a number of seconds within a century is so many seconds. -/
def Whole (beyond : ℚ → ℤ) (value : Option String) : Prop :=
  ∀ n, secondsOf beyond value = some n → 0 < n → n ≤ century → value.bind isoExact = some (n : ℚ)

/-- What is given for a number that is put into a specification. -/
def given (n : ℤ) : Option ℤ := if 0 < n then some n else none

theorem fits_secondsOf {n : ℤ} (h : secondsOf beyond value = some n) : Lib.Strconv.Fits 64 n := by
  unfold secondsOf at h
  split at h
  · cases h
  · split at h
    · cases h
    · exact fits_isoSeconds h

theorem number_map_toString {shown : Option ℤ} (h : ∀ n, shown = some n → Lib.Strconv.Fits 64 n) :
    number (shown.map toString) = shown := by
  cases shown with
  | none => rfl
  | some n => rw [Option.map_some, number_toString (h n rfl)]

theorem number_durationOf : number (durationOf beyond value) = secondsOf beyond value :=
  number_map_toString fun _ => fits_secondsOf

theorem spanOf_some (n : ℤ) : spanOf (some n) = if century < n then 0 else n := by
  by_cases h : century < n <;> simp [spanOf, forever, h]

/-- **A timespan is written over by one as long exactly if it is whole.** -/
theorem overwrite_iff : (overwrite (given (spanOf (secondsOf beyond value))) value).bind isoExact =
    value.bind isoExact ↔ Whole beyond value := by
  unfold Whole
  cases hshown : secondsOf beyond value with
  | none => exact iff_of_true rfl nofun
  | some n =>
    rw [spanOf_some]
    by_cases hforever : century < n
    · rw [if_pos hforever]
      refine iff_of_true rfl fun m hm _ hle => ?_
      obtain rfl := Option.some.inj hm
      omega
    · rw [if_neg hforever]
      by_cases hpos : 0 < n
      · rw [given, if_pos hpos, overwrite, Option.map_some, Option.some_or, Option.bind_some,
          isoExact_isoDuration hpos.le]
        constructor
        · rintro h m hm - -
          obtain rfl := Option.some.inj hm
          exact h.symm
        · intro h
          exact (h n rfl hpos (not_lt.mp hforever)).symm
      · rw [given, if_neg hpos]
        refine iff_of_true rfl fun m hm hm0 _ => ?_
        obtain rfl := Option.some.inj hm
        exact absurd hm0 hpos

/-- A lock that the dialog lets pass is drawn like the other timespans. -/
theorem spanOf_of_inRange {shown : Option ℤ}
    (h : outOfRange (shown.getD 0) LOCK_MIN_SEC LOCK_MAX_SEC = false) :
    shown.getD 0 = spanOf shown := by
  cases shown with
  | none => rfl
  | some n =>
    rw [spanOf_some, Option.getD_some]
    rw [Option.getD_some] at h
    by_cases hn : n = 0
    · rw [hn, ite_self]
    · have hhigh : n ≤ LOCK_MAX_SEC := by
        simp only [outOfRange, ne_eq, hn, not_false_eq_true, decide_true, Bool.true_and,
          Bool.or_eq_false_iff, decide_eq_false_iff_not, not_lt] at h
        exact h.2
      rw [if_neg]
      have hmax : LOCK_MAX_SEC < century := by decide
      omega

end Timespans

/-! ### What the updates take -/

section Taken

variable {n : ℤ} {r : Option ℤ} {label : String}

theorem positiveSeconds_positive (hn : Lib.Strconv.Fits 64 n)
    (h : positiveSeconds label (positive n) = .ok r) : r = given n := by
  unfold positiveSeconds at h
  rw [said_positive] at h
  unfold given
  by_cases hpos : 0 < n
  · rw [if_pos hpos, if_neg (toString_ne_empty n), atoi_toString hn] at h
    dsimp only at h
    rw [if_neg (not_le.mpr hpos)] at h
    rw [if_pos hpos]
    exact (Except.ok.inj h).symm
  · rw [if_neg hpos, if_pos rfl] at h
    rw [if_neg hpos]
    exact (Except.ok.inj h).symm

theorem boundedSeconds_positive {low high : ℤ} (hn : Lib.Strconv.Fits 64 n)
    (h : boundedSeconds label low high (positive n) = .ok r) : r = given n := by
  unfold boundedSeconds at h
  split at h
  · cases h
  · rename_i hseconds
    rw [← Except.ok.inj h]
    exact positiveSeconds_positive hn hseconds
  · rename_i seconds hseconds
    split_ifs at h
    rw [← Except.ok.inj h]
    exact positiveSeconds_positive hn hseconds

theorem deliveriesOf_positive (hn : Lib.Strconv.Fits 64 n)
    (h : deliveriesOf (positive n) = .ok r) : r = given n := by
  unfold deliveriesOf at h
  rw [said_positive] at h
  unfold given
  by_cases hpos : 0 < n
  · rw [if_pos hpos, if_neg (toString_ne_empty n), atoi_toString hn] at h
    dsimp only at h
    split at h
    · cases h
    · rename_i hbounds
      obtain ⟨-, hhigh⟩ := not_or.mp hbounds
      have hmax : maxDeliveryCount = 2000 := rfl
      rw [if_pos hpos, ← Except.ok.inj h, Int.bmod_eq_of_le] <;> norm_num <;> omega
  · rw [if_neg hpos, if_pos rfl] at h
    rw [if_neg hpos]
    exact (Except.ok.inj h).symm

theorem megabytesOf_zero : megabytesOf (positive 0) = .ok none := by
  rw [megabytesOf, said_positive]
  rfl

/-- A count that is sent is the stored one. -/
theorem given_or_stored {stored : Option ℤ} : (given (stored.getD 0)).or stored = stored := by
  cases stored with
  | none => rfl
  | some n =>
    rw [Option.getD_some, given]
    split_ifs <;> rfl

/-- Where a forwarding that is shown is sent on. -/
def sentOn (stored : Option String) : String := trimSpace (jsTrim ((stringOf stored).getD ""))

theorem Settings.with_iff {s : Settings} {lock ttl idle : Option ℚ}
    {forwardTo deadLetters : String} :
    { s with
      lockDuration := lock
      defaultMessageTimeToLive := ttl
      autoDeleteOnIdle := idle
      forwardTo := forwardTo
      forwardDeadLetteredMessagesTo := deadLetters } = s ↔
    lock = s.lockDuration ∧ ttl = s.defaultMessageTimeToLive ∧ idle = s.autoDeleteOnIdle ∧
      forwardTo = s.forwardTo ∧ deadLetters = s.forwardDeadLetteredMessagesTo := by
  cases s
  simp only [Settings.mk.injEq, true_and]

end Taken

/-! ### Names come back -/

theorem isNameChar_bounds {c : Char} (h : isNameChar c = true) : 33 ≤ c.toNat ∧ c.toNat ≤ 126 := by
  simp only [isNameChar, Bool.or_eq_true, List.contains_iff_mem] at h
  rcases h with h | h
  · have hc := toNat_of_isAlphanum h
    omega
  · rw [show "._-~/".toList = ['.', '_', '-', '~', '/'] from rfl] at h
    simp only [List.mem_cons, List.not_mem_nil, or_false] at h
    rcases h with rfl | rfl | rfl | rfl | rfl <;> decide

/-- What is submitted for a name without white space around it is that name, and stays so. -/
theorem submittableName_eq {typed name : String} {scope : NameScope} (htrim : jsTrim typed = typed)
    (h : submittableName typed scope = some name) : name = typed ∧ trimSpace typed = typed := by
  unfold submittableName at h
  split at h
  · rename_i husable
    rw [htrim] at h
    refine ⟨(Option.some.inj h).symm, trimSpace_eq_self fun c hc => ?_⟩
    simp only [nameProblem, htrim] at husable
    have hall : typed.toList.all isNameChar = true := by
      split_ifs at husable with h1 h2 h3 h4 h5
      all_goals
        simp only [Bool.not_eq_true, Bool.not_eq_false', Bool.and_eq_true] at h5
        exact h5.2
    exact not_isSpace_of_prints (isNameChar_bounds (List.all_eq_true.mp hall c hc))
  · cases h

theorem requiredName_ok {kind name r : String} (h : requiredName kind name = .ok r) :
    r = trimSpace name := by
  unfold requiredName at h
  dsimp only at h
  split_ifs at h
  exact (Except.ok.inj h).symm

/-- What is described is what there is. -/
theorem describeEntity_eq {c : Conn} {name : String} {e d : Entity} (he : c.entities name = some e)
    (h : c.describeEntity name = some d) : d = e := by
  obtain ⟨kind, p⟩ := e
  unfold Conn.describeEntity Conn.describeEntity.topicOf Conn.getQueue Conn.getTopic at h
  rw [he] at h
  cases kind with
  | queue =>
    simp only [Option.map_some, if_true, reduceCtorEq, if_false, Option.isSome_none,
      Bool.false_eq_true] at h
    split_ifs at h
    exact (Option.some.inj h).symm
  | topic =>
    simp only [Option.map_some, if_true, reduceCtorEq, if_false, Option.isSome_none,
      Bool.false_eq_true] at h
    split_ifs at h
    exact (Option.some.inj h).symm

/-! ### A queue or a topic saved as it was opened -/

/-- A queue or a topic that was opened in the dialog and saved as it was.  Names have no white space
around them. -/
structure SavedEntity where
  c : Conn
  name : String
  trimmed : jsTrim name = name
  stored : Entity
  valid : stored.properties.Valid
  held : c.entities name = some stored
  target : String
  after : Entity
  saved : c.resaveEntity name stored = .ok (target, after)

/-- The numbers of a specification are numbers of 64 bits. -/
structure EntitySpec.Fits (s : EntitySpec) : Prop where
  lock : Lib.Strconv.Fits 64 s.lockDurationSec
  count : Lib.Strconv.Fits 64 s.maxDeliveryCount
  ttl : Lib.Strconv.Fits 64 s.ttlSec
  idle : Lib.Strconv.Fits 64 s.autoDeleteOnIdleSec

theorem submitEntity_ok {draft : EntityDraft} {spec : EntitySpec}
    (h : submitEntity draft = .ok spec) :
    submittableName draft.name .entity = some spec.name ∧
      (draft.kind = .queue → outOfRange draft.lockDurationSec LOCK_MIN_SEC LOCK_MAX_SEC = false) ∧
      spec.Fits ∧ spec = {
        name := spec.name
        kind := draft.kind.text
        lockDurationSec := if draft.kind = .queue then draft.lockDurationSec else 0
        maxDeliveryCount := if draft.kind = .queue then draft.maxDeliveryCount else 0
        ttlSec := draft.ttlSec
        autoDeleteOnIdleSec := draft.autoDeleteOnIdleSec
        maxSizeMB := 0
        deadLetterOnExpiry := draft.kind = .queue && draft.deadLetterOnExpiry
        requiresSession := draft.kind = .queue && draft.requiresSession
        requiresDuplicateDetection := draft.requiresDuplicateDetection
        partitioned := false
        forwardTo := if draft.kind = .queue then jsTrim draft.forwardTo else ""
        forwardDeadLettersTo :=
          if draft.kind = .queue then jsTrim draft.forwardDeadLettersTo else "" } := by
  unfold submitEntity at h
  dsimp only at h
  split at h
  · cases h
  rename_i name hname
  split at h
  · cases h
  rename_i hrange
  split at h
  · rename_i lock count ttl idle hlock hcount httl hidle
    rw [← Except.ok.inj h]
    simp only [decide_eq_true_eq] at hlock hcount hrange
    obtain ⟨hlock, hlockFits⟩ := goInt_eq_some hlock
    obtain ⟨hcount, hcountFits⟩ := goInt_eq_some hcount
    obtain ⟨httl, httlFits⟩ := goInt_eq_some httl
    obtain ⟨hidle, hidleFits⟩ := goInt_eq_some hidle
    refine ⟨hname, fun hqueue => ?_, ⟨hlock ▸ hlockFits, hcount ▸ hcountFits, httl ▸ httlFits,
      hidle ▸ hidleFits⟩, ?_⟩
    · simpa using (not_or.mp hrange).1 ∘ And.intro hqueue
    · rw [hlock, hcount, httl, hidle]
      simp only [decide_eq_true_eq]
  · cases h

theorem updateDestination_ok {c : Conn} {spec : String × Attributes} {target : String}
    {e after : Entity} (he : c.entities (trimSpace spec.1) = some e)
    (h : c.updateDestination spec = .ok (target, after)) :
    target = trimSpace spec.1 ∧ after.kind = e.kind ∧
      (match e.kind with
        | .topic => applyTopicSettings e.properties spec.2
        | .queue => applyQueueSettings e.properties spec.2) = .ok after.properties := by
  unfold Conn.updateDestination at h
  split_ifs at h
  split at h
  · cases h
  rename_i name hname
  obtain rfl := requiredName_ok hname
  split at h
  · cases h
  rename_i d hd
  obtain rfl := describeEntity_eq he hd
  split_ifs at h
  split at h
  · cases h
  rename_i properties hproperties
  split at h
  · cases h
  obtain ⟨rfl, rfl⟩ := Prod.mk.inj (Except.ok.inj h)
  exact ⟨rfl, rfl, hproperties⟩

/-- **What an update stores of a queue.** -/
theorem applyQueueSettings_ok {p after : Properties} {spec : EntitySpec} (hfits : spec.Fits)
    (hsize : spec.maxSizeMB = 0) (h : applyQueueSettings p spec.spec.2 = .ok after) :
    after = { p with
      lockDuration := overwrite (given spec.lockDurationSec) p.lockDuration
      defaultMessageTimeToLive := overwrite (given spec.ttlSec) p.defaultMessageTimeToLive
      autoDeleteOnIdle := overwrite (given spec.autoDeleteOnIdleSec) p.autoDeleteOnIdle
      maxDeliveryCount := (given spec.maxDeliveryCount).or p.maxDeliveryCount
      deadLetteringOnMessageExpiration := some spec.deadLetterOnExpiry
      forwardTo := some (trimSpace spec.forwardTo)
      forwardDeadLetteredMessagesTo := some (trimSpace spec.forwardDeadLettersTo) } := by
  unfold applyQueueSettings at h
  simp only [EntitySpec.spec, hsize, megabytesOf_zero] at h
  split at h
  · cases h
  rename_i lock hlock
  split at h
  · cases h
  rename_i ttl httl
  split at h
  · cases h
  rename_i idle hidle
  split at h
  · cases h
  rename_i count hcount
  rw [← Except.ok.inj h, boundedSeconds_positive hfits.lock hlock,
    positiveSeconds_positive hfits.ttl httl, positiveSeconds_positive hfits.idle hidle,
    deliveriesOf_positive hfits.count hcount, saidFlag_formatBool]
  simp only [forwarding, Option.map_some, Option.some_or, Option.none_or, trimSpace_trimSpace]

/-- **What an update stores of a topic.** -/
theorem applyTopicSettings_ok {p after : Properties} {spec : EntitySpec} (hfits : spec.Fits)
    (hsize : spec.maxSizeMB = 0) (h : applyTopicSettings p spec.spec.2 = .ok after) :
    after = { p with
      defaultMessageTimeToLive := overwrite (given spec.ttlSec) p.defaultMessageTimeToLive
      autoDeleteOnIdle := overwrite (given spec.autoDeleteOnIdleSec) p.autoDeleteOnIdle } := by
  unfold applyTopicSettings at h
  simp only [EntitySpec.spec, hsize, megabytesOf_zero] at h
  split at h
  · cases h
  rename_i ttl httl
  split at h
  · cases h
  rename_i idle hidle
  rw [← Except.ok.inj h, positiveSeconds_positive hfits.ttl httl,
    positiveSeconds_positive hfits.idle hidle, Option.none_or]

/-- **What the dialog of a queue opens with.** -/
theorem entityDraftOf_queue {beyond : ℚ → ℤ} {name : String} {p : Properties} (h : p.Valid) :
    entityDraftOf name (queueDestination beyond p) = {
      name := name
      kind := .queue
      lockDurationSec := (secondsOf beyond p.lockDuration).getD 0
      maxDeliveryCount := p.maxDeliveryCount.getD 0
      ttlSec := spanOf (secondsOf beyond p.defaultMessageTimeToLive)
      autoDeleteOnIdleSec := spanOf (secondsOf beyond p.autoDeleteOnIdle)
      deadLetterOnExpiry := p.deadLetteringOnMessageExpiration.getD false
      requiresSession := p.requiresSession.getD false
      requiresDuplicateDetection := p.requiresDuplicateDetection.getD false
      forwardTo := (stringOf p.forwardTo).getD ""
      forwardDeadLettersTo := (stringOf p.forwardDeadLetteredMessagesTo).getD "" } := by
  have hcount : number (p.maxDeliveryCount.map toString) = p.maxDeliveryCount :=
    number_map_toString fun n hn => fits_of_fits (h.deliveries n hn)
  have hkind : (if text (queueDestination beyond p).entityType = some "topic" then EntityKind.topic
      else .queue) = .queue := if_neg (show ¬text (some EntityQueue) = some "topic" by decide)
  rw [entityDraftOf, hkind]
  simp only [queueDestination, number_durationOf, hcount, boolOf, flag_formatBool, getD_text]

/-- **What the dialog of a topic opens with.** -/
theorem entityDraftOf_topic {beyond : ℚ → ℤ} {name : String} {p : Properties} :
    entityDraftOf name (topicDestination beyond p) = {
      name := name
      kind := .topic
      lockDurationSec := 0
      maxDeliveryCount := 0
      ttlSec := spanOf (secondsOf beyond p.defaultMessageTimeToLive)
      autoDeleteOnIdleSec := spanOf (secondsOf beyond p.autoDeleteOnIdle)
      deadLetterOnExpiry := false
      requiresSession := false
      requiresDuplicateDetection := p.requiresDuplicateDetection.getD false
      forwardTo := ""
      forwardDeadLettersTo := "" } := by
  have hkind : (if text (topicDestination beyond p).entityType = some "topic" then EntityKind.topic
      else .queue) = .topic := if_pos (show text (some EntityTopic) = some "topic" by decide)
  have hflag : flag none = false := by decide
  rw [entityDraftOf, hkind]
  simp only [topicDestination, number_durationOf, boolOf, flag_formatBool, hflag]
  rfl

namespace SavedEntity

variable (e : SavedEntity)

/-- The entity is the one that is changed, and it says what it said. -/
def Unchanged : Prop :=
  e.target = e.name ∧ e.after.kind = e.stored.kind ∧
    e.after.properties.settings = e.stored.properties.settings

/-- Timespans that are shown are whole seconds, and what a queue forwards to is sent on as it is. -/
def Kept : Prop :=
  Whole e.c.beyond e.stored.properties.defaultMessageTimeToLive ∧
    Whole e.c.beyond e.stored.properties.autoDeleteOnIdle ∧
    (e.stored.kind = .queue →
      Whole e.c.beyond e.stored.properties.lockDuration ∧
        sentOn e.stored.properties.forwardTo = e.stored.properties.forwardTo.getD "" ∧
        sentOn e.stored.properties.forwardDeadLetteredMessagesTo =
          e.stored.properties.forwardDeadLetteredMessagesTo.getD "")

/-- The specification that was submitted, and what came of it. -/
theorem exists_spec : ∃ spec : EntitySpec,
    submitEntity (entityDraftOf e.name (e.stored.destination e.c.beyond)) = .ok spec ∧
      e.target = e.name ∧ e.after.kind = e.stored.kind ∧
      (match e.stored.kind with
        | .topic => applyTopicSettings e.stored.properties spec.spec.2
        | .queue => applyQueueSettings e.stored.properties spec.spec.2) =
          .ok e.after.properties := by
  have h := e.saved
  unfold Conn.resaveEntity at h
  split at h
  · cases h
  rename_i spec hspec
  obtain ⟨hname, htrim⟩ := submittableName_eq e.trimmed (submitEntity_ok hspec).1
  have hfirst : trimSpace spec.spec.1 = e.name := by
    rw [EntitySpec.spec, trimSpace_trimSpace, hname]
    exact htrim
  obtain ⟨htarget, hkind, hafter⟩ := updateDestination_ok (hfirst ▸ e.held) h
  exact ⟨spec, hspec, htarget.trans hfirst, hkind, hafter⟩

/-- **Saving what was opened changes nothing exactly if it is kept.** -/
theorem unchanged_iff : e.Unchanged ↔ e.Kept := by
  obtain ⟨spec, hspec, htarget, hkind, hafter⟩ := e.exists_spec
  rw [Unchanged, and_iff_right htarget, and_iff_right hkind, Kept]
  cases hstored : e.stored.kind with
  | queue =>
    rw [Entity.destination, hstored] at hspec
    rw [hstored] at hafter
    dsimp only at hspec hafter
    rw [entityDraftOf_queue e.valid] at hspec
    obtain ⟨-, hrange, hfits, heq⟩ := submitEntity_ok hspec
    have hlock := spanOf_of_inRange (hrange rfl)
    have hsize : spec.maxSizeMB = 0 := by rw [heq]
    have hsettings : e.after.properties.settings = { e.stored.properties.settings with
        lockDuration := (overwrite (given (spanOf (secondsOf e.c.beyond
          e.stored.properties.lockDuration))) e.stored.properties.lockDuration).bind isoExact
        defaultMessageTimeToLive := (overwrite (given (spanOf (secondsOf e.c.beyond
          e.stored.properties.defaultMessageTimeToLive)))
            e.stored.properties.defaultMessageTimeToLive).bind isoExact
        autoDeleteOnIdle := (overwrite (given (spanOf (secondsOf e.c.beyond
          e.stored.properties.autoDeleteOnIdle)))
            e.stored.properties.autoDeleteOnIdle).bind isoExact
        forwardTo := sentOn e.stored.properties.forwardTo
        forwardDeadLetteredMessagesTo :=
          sentOn e.stored.properties.forwardDeadLetteredMessagesTo } := by
      rw [applyQueueSettings_ok hfits hsize hafter, heq]
      simp only [Properties.settings, if_true, hlock, given_or_stored, decide_true, Bool.true_and,
        Option.getD_some, sentOn]
    rw [hsettings, Settings.with_iff]
    simp only [Properties.settings, overwrite_iff]
    exact ⟨fun h => ⟨h.2.1, h.2.2.1, fun _ => ⟨h.1, h.2.2.2⟩⟩,
      fun h => ⟨(h.2.2 trivial).1, h.1, h.2.1, (h.2.2 trivial).2⟩⟩
  | topic =>
    rw [Entity.destination, hstored] at hspec
    rw [hstored] at hafter
    dsimp only at hspec hafter
    rw [entityDraftOf_topic] at hspec
    obtain ⟨-, -, hfits, heq⟩ := submitEntity_ok hspec
    have hsize : spec.maxSizeMB = 0 := by rw [heq]
    have hsettings : e.after.properties.settings = { e.stored.properties.settings with
        lockDuration := e.stored.properties.settings.lockDuration
        defaultMessageTimeToLive := (overwrite (given (spanOf (secondsOf e.c.beyond
          e.stored.properties.defaultMessageTimeToLive)))
            e.stored.properties.defaultMessageTimeToLive).bind isoExact
        autoDeleteOnIdle := (overwrite (given (spanOf (secondsOf e.c.beyond
          e.stored.properties.autoDeleteOnIdle)))
            e.stored.properties.autoDeleteOnIdle).bind isoExact
        forwardTo := e.stored.properties.settings.forwardTo
        forwardDeadLetteredMessagesTo :=
          e.stored.properties.settings.forwardDeadLetteredMessagesTo } := by
      rw [applyTopicSettings_ok hfits hsize hafter, heq]
      rfl
    rw [hsettings, Settings.with_iff]
    simp only [Properties.settings, overwrite_iff, reduceCtorEq, false_imp_iff, and_true, true_and]

end SavedEntity

/-! ### A subscription saved as it was opened -/

/-- A subscription that was opened in the dialog and saved as it was.  Names have no white space
around them. -/
structure SavedSubscription where
  c : Conn
  topic : String
  name : String
  topicTrimmed : jsTrim topic = topic
  trimmed : jsTrim name = name
  stored : Properties
  valid : stored.Valid
  held : c.subscriptions topic name = some stored
  target : String × String
  after : Properties
  saved : c.resaveSubscription topic name stored = .ok (target, after)

/-- The numbers of a specification are numbers of 64 bits. -/
structure SubscriptionSpec.Fits (s : SubscriptionSpec) : Prop where
  lock : Lib.Strconv.Fits 64 s.lockDurationSec
  count : Lib.Strconv.Fits 64 s.maxDeliveryCount
  ttl : Lib.Strconv.Fits 64 s.ttlSec

theorem submitSubscription_ok {draft : SubscriptionDraft} {spec : SubscriptionSpec}
    (h : submitSubscription draft = .ok spec) :
    submittableName draft.name .child = some spec.name ∧
      submittableName draft.topic .entity = some spec.topic ∧
      outOfRange draft.lockDurationSec LOCK_MIN_SEC LOCK_MAX_SEC = false ∧ spec.Fits ∧
      spec = {
        topic := spec.topic
        name := spec.name
        lockDurationSec := draft.lockDurationSec
        maxDeliveryCount := draft.maxDeliveryCount
        ttlSec := draft.ttlSec
        autoDeleteOnIdleSec := 0
        deadLetterOnExpiry := draft.deadLetterOnExpiry
        deadLetterOnRuleError := draft.deadLetterOnRuleError
        requiresSession := draft.requiresSession
        forwardTo := ""
        forwardDeadLettersTo := jsTrim draft.forwardDeadLettersTo } := by
  unfold submitSubscription at h
  split at h
  · rename_i name topic hname htopic
    split at h
    · cases h
    rename_i hrange
    split at h
    · rename_i lock count ttl hlock hcount httl
      rw [← Except.ok.inj h]
      obtain ⟨hlock, hlockFits⟩ := goInt_eq_some hlock
      obtain ⟨hcount, hcountFits⟩ := goInt_eq_some hcount
      obtain ⟨httl, httlFits⟩ := goInt_eq_some httl
      refine ⟨hname, htopic, by simpa using (not_or.mp hrange).1,
        ⟨hlock ▸ hlockFits, hcount ▸ hcountFits, httl ▸ httlFits⟩, ?_⟩
      rw [hlock, hcount, httl]
    · cases h
  · cases h

theorem updateSubscription_ok {c : Conn} {spec : (String × String) × Attributes}
    {target : String × String} {p after : Properties}
    (hp : c.subscriptions (trimSpace spec.1.1) (trimSpace spec.1.2) = some p)
    (h : c.updateSubscription spec = .ok (target, after)) :
    target = (trimSpace spec.1.1, trimSpace spec.1.2) ∧
      applySubscriptionSettings p spec.2 = .ok after := by
  unfold Conn.updateSubscription Conn.subscriptionParts at h
  split_ifs at h
  split at h
  · cases h
  rename_i topic name hparts
  split at hparts
  · cases hparts
  rename_i topic' htopic
  obtain rfl := requiredName_ok htopic
  split at hparts
  · cases hparts
  rename_i name' hname
  obtain rfl := requiredName_ok hname
  obtain ⟨rfl, rfl⟩ := Prod.mk.inj (Except.ok.inj hparts)
  rw [hp] at h
  dsimp only at h
  split at h
  · cases h
  rename_i properties hproperties
  split at h
  · cases h
  obtain ⟨rfl, rfl⟩ := Prod.mk.inj (Except.ok.inj h)
  exact ⟨rfl, hproperties⟩

/-- **What an update stores of a subscription.** -/
theorem applySubscriptionSettings_ok {p after : Properties} {spec : SubscriptionSpec}
    (hfits : spec.Fits) (hidle : spec.autoDeleteOnIdleSec = 0)
    (h : applySubscriptionSettings p spec.spec.2 = .ok after) : after = { p with
      lockDuration := overwrite (given spec.lockDurationSec) p.lockDuration
      defaultMessageTimeToLive := overwrite (given spec.ttlSec) p.defaultMessageTimeToLive
      maxDeliveryCount := (given spec.maxDeliveryCount).or p.maxDeliveryCount
      deadLetteringOnMessageExpiration := some spec.deadLetterOnExpiry
      enableDeadLetteringOnFilterEvaluationExceptions := some spec.deadLetterOnRuleError
      forwardTo := some (trimSpace spec.forwardTo)
      forwardDeadLetteredMessagesTo := some (trimSpace spec.forwardDeadLettersTo) } := by
  unfold applySubscriptionSettings at h
  simp only [SubscriptionSpec.spec, hidle] at h
  split at h
  · cases h
  rename_i lock hlock
  split at h
  · cases h
  rename_i ttl httl
  split at h
  · cases h
  rename_i idle hidleSeconds
  split at h
  · cases h
  rename_i count hcount
  have hzero : idle = none := positiveSeconds_positive (by decide) hidleSeconds
  rw [← Except.ok.inj h, boundedSeconds_positive hfits.lock hlock,
    positiveSeconds_positive hfits.ttl httl, hzero, deliveriesOf_positive hfits.count hcount,
    saidFlag_formatBool, saidFlag_formatBool]
  simp only [forwarding, overwrite, Option.map_some, Option.map_none, Option.some_or,
    Option.none_or, trimSpace_trimSpace]

namespace SavedSubscription

variable (e : SavedSubscription)

/-- The subscription is the one that is changed, and it says what it said. -/
def Unchanged : Prop :=
  e.target = (e.topic, e.name) ∧ e.after.settings = e.stored.settings

/-- Timespans that are shown are whole seconds, the messages are not forwarded, and what the dead
letters are forwarded to is sent on as it is. -/
structure Kept : Prop where
  lock : Whole e.c.beyond e.stored.lockDuration
  ttl : Whole e.c.beyond e.stored.defaultMessageTimeToLive
  forwardTo : e.stored.forwardTo.getD "" = ""
  deadLetters : sentOn e.stored.forwardDeadLetteredMessagesTo =
    e.stored.forwardDeadLetteredMessagesTo.getD ""

/-- **What the dialog opens with.** -/
theorem subscriptionDraftOf_subscriptionOf :
    subscriptionDraftOf e.topic e.name (subscriptionOf e.c.beyond e.stored) = {
      topic := e.topic
      name := e.name
      lockDurationSec := (secondsOf e.c.beyond e.stored.lockDuration).getD 0
      maxDeliveryCount := e.stored.maxDeliveryCount.getD 0
      ttlSec := spanOf (secondsOf e.c.beyond e.stored.defaultMessageTimeToLive)
      deadLetterOnExpiry := e.stored.deadLetteringOnMessageExpiration.getD false
      deadLetterOnRuleError :=
        e.stored.enableDeadLetteringOnFilterEvaluationExceptions.getD false
      requiresSession := e.stored.requiresSession.getD false
      forwardDeadLettersTo := (stringOf e.stored.forwardDeadLetteredMessagesTo).getD "" } := by
  have hcount : number (e.stored.maxDeliveryCount.map toString) = e.stored.maxDeliveryCount :=
    number_map_toString fun n hn => fits_of_fits (e.valid.deliveries n hn)
  simp only [subscriptionDraftOf, subscriptionOf, number_durationOf, hcount, boolOf,
    flag_formatBool, getD_text]

/-- The specification that was submitted, and what came of it. -/
theorem exists_spec : ∃ spec : SubscriptionSpec,
    submitSubscription (subscriptionDraftOf e.topic e.name (subscriptionOf e.c.beyond e.stored)) =
        .ok spec ∧
      e.target = (e.topic, e.name) ∧
      applySubscriptionSettings e.stored spec.spec.2 = .ok e.after := by
  have h := e.saved
  unfold Conn.resaveSubscription at h
  split at h
  · cases h
  rename_i spec hspec
  obtain ⟨hname, htopic, -⟩ := submitSubscription_ok hspec
  obtain ⟨hname, hnameTrim⟩ := submittableName_eq e.trimmed hname
  obtain ⟨htopic, htopicTrim⟩ := submittableName_eq e.topicTrimmed htopic
  have hfirst : trimSpace spec.spec.1.1 = e.topic := by
    rw [SubscriptionSpec.spec, trimSpace_trimSpace, htopic]
    exact htopicTrim
  have hsecond : trimSpace spec.spec.1.2 = e.name := by
    rw [SubscriptionSpec.spec, trimSpace_trimSpace, hname]
    exact hnameTrim
  have hheld : e.c.subscriptions (trimSpace spec.spec.1.1) (trimSpace spec.spec.1.2) =
      some e.stored := by
    rw [hfirst, hsecond]
    exact e.held
  obtain ⟨htarget, hafter⟩ := updateSubscription_ok hheld h
  rw [hfirst, hsecond] at htarget
  exact ⟨spec, hspec, htarget, hafter⟩

/-- **Saving what was opened changes nothing exactly if it is kept.** -/
theorem unchanged_iff : e.Unchanged ↔ e.Kept := by
  obtain ⟨spec, hspec, htarget, hafter⟩ := e.exists_spec
  rw [e.subscriptionDraftOf_subscriptionOf] at hspec
  obtain ⟨-, -, hrange, hfits, heq⟩ := submitSubscription_ok hspec
  have hlock := spanOf_of_inRange hrange
  have hidle : spec.autoDeleteOnIdleSec = 0 := by rw [heq]
  have hblank : trimSpace "" = "" := rfl
  have hsettings : e.after.settings = { e.stored.settings with
      lockDuration := (overwrite (given (spanOf (secondsOf e.c.beyond
        e.stored.lockDuration))) e.stored.lockDuration).bind isoExact
      defaultMessageTimeToLive := (overwrite (given (spanOf (secondsOf e.c.beyond
        e.stored.defaultMessageTimeToLive))) e.stored.defaultMessageTimeToLive).bind isoExact
      autoDeleteOnIdle := e.stored.settings.autoDeleteOnIdle
      forwardTo := ""
      forwardDeadLetteredMessagesTo := sentOn e.stored.forwardDeadLetteredMessagesTo } := by
    rw [applySubscriptionSettings_ok hfits hidle hafter, heq]
    simp only [Properties.settings, hlock, given_or_stored, Option.getD_some, sentOn, hblank]
  rw [Unchanged, and_iff_right htarget, hsettings, Settings.with_iff]
  simp only [Properties.settings, overwrite_iff, true_and]
  exact ⟨fun h => ⟨h.1, h.2.1, h.2.2.1.symm, h.2.2.2⟩,
    fun h => ⟨h.lock, h.ttl, h.forwardTo.symm, h.deadLetters⟩⟩

end SavedSubscription

end MqStudio.Azureservicebus.Edit
