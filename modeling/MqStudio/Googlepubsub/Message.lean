import MqStudio.Driver.HeldBrowse
import MqStudio.Lib.Strconv
import MqStudio.Lib.Text

/-!
# The Pub/Sub browse

`googlepubsub/message.go`: the messages of a subscription are pulled a hundred at a time, and their
deadlines set to zero a hundred at a time.

* `pullHeld`, `releases`, `queryMessages`: the browse.
* `flatMap_releases`, `length_le_of_mem_releases`: every ack id is handed back once, in requests of
  a bounded size.
-/

namespace MqStudio.Googlepubsub

open Std (ExtTreeMap)
open Lib.HeldRead Lib.Strconv Lib.Text HeldBrowse Model

def PropDeliveryAttempt : String := "deliveryAttempt"
def PropOrderingKey : String := "orderingKey"
def PropSubscription : String := "subscription"
def PropAttributePrefix : String := "attr."

/-- How many messages one pull asks for. -/
def pullBatch : ℕ := 100

def maxBrowse : ℕ := 500

/-- How many ack ids one request carries. -/
def ackBatch : ℕ := 100

instance : NeZero ackBatch := ⟨by decide⟩

structure PubsubMessage where
  data : String
  attributes : ExtTreeMap String String compare
  messageId : String
  /-- In milliseconds. -/
  publishTime : Option Int
  orderingKey : String

structure ReceivedMessage where
  ackId : String
  message : Option PubsubMessage
  deliveryAttempt : Int

structure ServiceError where
  text : String
  isNotFound : Bool

inductive BrowseError where
  | connectionDown
  | namesNoSubscription
  | noSubscriptionNamed (name project : String)
  | service (err : ServiceError)

/-- The connection, with the answers of the service to one pull after another and to one release
after another. -/
structure Conn where
  live : Bool
  project : String
  pull : ℕ → Except ServiceError (List ReceivedMessage)
  modifyAckDeadline : ℕ → Option String

structure MessageQueryParams where
  topic : String
  maxResults : Int

structure ModifyAckDeadlineRequest where
  subscription : String
  ackIds : List String
  ackDeadlineSeconds : ℕ

/-! ### Messages -/

/-- The message itself; the fields of one that is not there are zero. -/
def ReceivedMessage.getMessage (received : ReceivedMessage) : PubsubMessage :=
  received.message.getD ⟨"", ∅, "", none, ""⟩

def propertiesOf (subscription : String) (received : ReceivedMessage) :
    ExtTreeMap String String compare :=
  let message := received.getMessage
  let properties := (∅ : ExtTreeMap String String compare).insert PropSubscription subscription
  let properties :=
    if 0 < received.deliveryAttempt then
      properties.insert PropDeliveryAttempt (toString received.deliveryAttempt)
    else properties
  let properties :=
    if message.orderingKey ≠ "" then properties.insert PropOrderingKey message.orderingKey
    else properties
  message.attributes.foldl (fun properties name value =>
    properties.insert (PropAttributePrefix ++ name) value) properties

def messageItemOf (subscription : String) (index : ℕ) (received : ReceivedMessage) :
    MessageItem where
  id := index
  topic := subscription
  messageID := received.getMessage.messageId
  tags := ""
  keys := received.getMessage.orderingKey
  queueID := UnknownMetric
  queueOffset := UnknownMetric
  storeTimestamp := received.getMessage.publishTime.getD 0
  status := .normal
  body := received.getMessage.data
  properties := propertiesOf subscription received

/-! ### The browse -/

/-- The name of a subscription, or that none is given. -/
def requiredName (name : String) : Option String :=
  let trimmed := trimSpace name
  if trimmed = "" ∨ '/' ∈ trimmed.toList then none else some trimmed

def Conn.subscriptionPath (c : Conn) (name : String) : String :=
  "projects/" ++ c.project ++ "/subscriptions/" ++ name

/-- The last segment of a path. -/
def shortName (path : String) : String :=
  match cutLast '/' (trimSpace path).toList with
  | some (_, last) => String.ofList last
  | none => trimSpace path

/-- How the messages of a subscription are read. -/
def reader : Reader ReceivedMessage String String where
  key received := received.getMessage.messageId
  handle received := received.ackId
  batch := pullBatch

def Conn.replies (c : Conn) (path : String) (n : ℕ) : Except BrowseError (List ReceivedMessage) :=
  (c.pull n).mapError fun err =>
    if err.isNotFound then .noSubscriptionNamed (shortName path) c.project else .service err

def Conn.pullHeld (c : Conn) (path : String) (wanted fuel : ℕ) :
    Option (Ended BrowseError ReceivedMessage String String) :=
  receiveHeld reader (c.replies path) wanted fuel [] .empty

def releases (path : String) (ackIDs : List String) : List ModifyAckDeadlineRequest :=
  (slices ackBatch ackIDs 0).map fun part => ⟨path, part, 0⟩

def wantedOf (params : MessageQueryParams) : ℕ :=
  HeldBrowse.wantedOf pullBatch maxBrowse params.maxResults

def Conn.queryMessages (c : Conn) (params : MessageQueryParams) (fuel : ℕ) :
    Option (Browse BrowseError ReceivedMessage ModifyAckDeadlineRequest) :=
  if !c.live then some (.refused .connectionDown)
  else
    match requiredName params.topic with
    | none => some (.refused .namesNoSubscription)
    | some name =>
      let path := c.subscriptionPath name
      (c.pullHeld path (wantedOf params) fuel).map
        (browse (messageItemOf name) c.modifyAckDeadline (releases path))

/-! ### What is released -/

/-- **Every ack id once**, in requests of a bounded size. -/
theorem flatMap_releases (path : String) (ackIDs : List String) :
    (releases path ackIDs).flatMap (·.ackIds) = ackIDs := by
  rw [releases, List.flatMap_map, List.flatMap_id', slices_flatten, List.drop_zero]

theorem length_le_of_mem_releases {path : String} {ackIDs : List String}
    {request : ModifyAckDeadlineRequest} (h : request ∈ releases path ackIDs) :
    request.ackIds.length ≤ ackBatch := by
  obtain ⟨part, hpart, rfl⟩ := List.mem_map.mp h
  exact length_slice_le hpart

end MqStudio.Googlepubsub
