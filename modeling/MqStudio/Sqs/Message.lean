import MqStudio.Driver.HeldBrowse
import MqStudio.Lib.Strconv
import MqStudio.Lib.Text

/-!
# The SQS browse

`sqs/message.go`: messages are received ten at a time with a visibility timeout, and made visible
again ten at a time.

* `receiveHeld`, `releases`, `queryMessages`: the browse.
* `flatMap_releases`, `fits_of_mem_releases`: every handle is released once, in requests that the
  service takes.
-/

namespace MqStudio.Sqs

open Std (ExtTreeMap)
open Lib.HeldRead Lib.Strconv Lib.Text HeldBrowse Model

def PropReceiveCount : String := "approximateReceiveCount"
def PropFirstReceivedAt : String := "approximateFirstReceiveTimestamp"
def PropSenderID : String := "senderId"
def PropGroupID : String := "messageGroupId"
def PropDeduplicationID : String := "messageDeduplicationId"
def PropSequenceNumber : String := "sequenceNumber"
def PropBodyMD5 : String := "md5OfBody"

/-- The most messages that one receive may return, and one release may carry. -/
def receiveBatch : ℕ := 10

def maxBrowse : ℕ := 500

instance : NeZero receiveBatch := ⟨by decide⟩

structure MessageAttributeValue where
  stringValue : Option String
  stringListValues : List String
  binaryValue : List UInt8

structure Message where
  messageId : Option String
  receiptHandle : Option String
  body : Option String
  md5OfBody : Option String
  attributes : ExtTreeMap String String compare
  messageAttributes : ExtTreeMap String MessageAttributeValue compare

structure ServiceError where
  text : String
  queueDoesNotExist : Bool

inductive BrowseError where
  | connectionDown
  | noQueueName
  | noQueueNamed (name region : String)
  | service (err : ServiceError)

/-- The connection, with the answers of the service: to the name of a queue, to one receive after
another, and to one release after another. -/
structure Conn where
  live : Bool
  region : String
  urls : ExtTreeMap String String compare
  getQueueUrl : String → Except ServiceError (Option String)
  receiveMessage : ℕ → Except ServiceError (List Message)
  changeMessageVisibilityBatch : ℕ → Option String

structure MessageQueryParams where
  topic : String
  maxResults : Int

structure ChangeMessageVisibilityBatchRequestEntry where
  id : String
  receiptHandle : String
  visibilityTimeout : ℕ

structure ChangeMessageVisibilityBatchInput where
  queueUrl : String
  entries : List ChangeMessageVisibilityBatchRequestEntry

/-! ### Messages -/

/-- `aws.ToString`. -/
def toStringOr (s : Option String) : String := s.getD ""

def messageAttributeText (value : MessageAttributeValue) : String :=
  if toStringOr value.stringValue ≠ "" then toStringOr value.stringValue
  else if value.stringListValues ≠ [] then ", ".intercalate value.stringListValues
  else if value.binaryValue ≠ [] then s!"<{value.binaryValue.length} bytes>"
  else ""

/-- A system attribute; one that is not there is blank. -/
def Message.attribute (message : Message) (name : String) : String :=
  (message.attributes[name]?).getD ""

/-- A property, unless it is blank. -/
def setUnlessBlank (properties : ExtTreeMap String String compare) (key value : String) :
    ExtTreeMap String String compare :=
  if value = "" then properties else properties.insert key value

def propertiesOf (message : Message) : ExtTreeMap String String compare :=
  let properties := [
    (PropReceiveCount, message.attribute "ApproximateReceiveCount"),
    (PropFirstReceivedAt, message.attribute "ApproximateFirstReceiveTimestamp"),
    (PropSenderID, message.attribute "SenderId"),
    (PropGroupID, message.attribute "MessageGroupId"),
    (PropDeduplicationID, message.attribute "MessageDeduplicationId"),
    (PropSequenceNumber, message.attribute "SequenceNumber"),
    (PropBodyMD5, toStringOr message.md5OfBody)].foldl
      (fun properties (key, value) => setUnlessBlank properties key value) ∅
  message.messageAttributes.foldl (fun properties name value =>
    properties.insert ("attr." ++ name) (messageAttributeText value)) properties

/-- When the message was sent, in milliseconds; zero where the service did not say. -/
def sentTimestamp (message : Message) : Int :=
  (parseInt 64 (message.attribute "SentTimestamp").toList).getD 0

def messageItemOf (queue : String) (index : ℕ) (message : Message) : MessageItem where
  id := index
  topic := queue
  messageID := toStringOr message.messageId
  tags := ""
  keys := ((propertiesOf message)[PropGroupID]?).getD ""
  queueID := UnknownMetric
  queueOffset := UnknownMetric
  storeTimestamp := sentTimestamp message
  status := .normal
  body := toStringOr message.body
  properties := propertiesOf message

/-! ### The browse -/

def Conn.queueURL (c : Conn) (name : String) : Except BrowseError String :=
  let name := trimSpace name
  if name = "" then .error .noQueueName
  else
    match c.urls[name]? with
    | some cached => .ok cached
    | none =>
      match c.getQueueUrl name with
      | .error err =>
        if err.queueDoesNotExist then .error (.noQueueNamed name c.region) else .error (.service err)
      | .ok url => .ok (toStringOr url)

/-- How the messages of a queue are read. -/
def reader : Reader Message String String where
  key message := toStringOr message.messageId
  handle message := toStringOr message.receiptHandle
  batch := receiveBatch

def Conn.replies (c : Conn) (n : ℕ) : Except BrowseError (List Message) :=
  (c.receiveMessage n).mapError .service

def Conn.receiveHeld (c : Conn) (wanted fuel : ℕ) :
    Option (Ended BrowseError Message String String) :=
  Lib.HeldRead.receiveHeld reader c.replies wanted fuel [] .empty

/-- The entries of one release. -/
def entriesOf (handles : List String) : List ChangeMessageVisibilityBatchRequestEntry :=
  handles.mapIdx fun index handle => ⟨toString index, handle, 0⟩

def releases (url : String) (handles : List String) : List ChangeMessageVisibilityBatchInput :=
  (slices receiveBatch handles 0).map fun part => ⟨url, entriesOf part⟩

def wantedOf (params : MessageQueryParams) : ℕ :=
  HeldBrowse.wantedOf receiveBatch maxBrowse params.maxResults

def Conn.queryMessages (c : Conn) (params : MessageQueryParams) (fuel : ℕ) :
    Option (Browse BrowseError Message ChangeMessageVisibilityBatchInput) :=
  if !c.live then some (.refused .connectionDown)
  else
    match c.queueURL params.topic with
    | .error err => some (.refused err)
    | .ok url =>
      (c.receiveHeld (wantedOf params) fuel).map
        (browse (messageItemOf params.topic) c.changeMessageVisibilityBatch (releases url))

/-! ### What is released -/

/-- The handles that a release carries. -/
def ChangeMessageVisibilityBatchInput.handles (input : ChangeMessageVisibilityBatchInput) :
    List String := input.entries.map (·.receiptHandle)

/-- A release that the service takes: no more than it allows, each entry under an id of its own. -/
structure ChangeMessageVisibilityBatchInput.Fits (input : ChangeMessageVisibilityBatchInput) :
    Prop where
  length_le : input.entries.length ≤ receiveBatch
  ids : (input.entries.map (·.id)).Nodup

theorem handles_entriesOf (handles : List String) :
    (entriesOf handles).map (·.receiptHandle) = handles := by
  refine List.ext_getElem (by simp [entriesOf]) fun i hi hl => ?_
  simp [entriesOf]

theorem nodup_ids_entriesOf (handles : List String) : ((entriesOf handles).map (·.id)).Nodup := by
  have hids : (entriesOf handles).map (·.id) = (List.range handles.length).map toString := by
    refine List.ext_getElem (by simp [entriesOf]) fun i hi hl => ?_
    simp [entriesOf]
  rw [hids]
  refine List.Nodup.map (fun i j hij => ?_) List.nodup_range
  exact Nat.repr_injective hij

/-- **Every handle once**, in requests that fit. -/
theorem flatMap_releases (url : String) (handles : List String) :
    (releases url handles).flatMap (·.handles) = handles := by
  rw [releases, List.flatMap_map]
  simp only [ChangeMessageVisibilityBatchInput.handles, handles_entriesOf]
  rw [List.flatMap_id', slices_flatten, List.drop_zero]

theorem fits_of_mem_releases {url : String} {handles : List String}
    {input : ChangeMessageVisibilityBatchInput} (h : input ∈ releases url handles) : input.Fits := by
  obtain ⟨part, hpart, rfl⟩ := List.mem_map.mp h
  refine ⟨?_, nodup_ids_entriesOf part⟩
  rw [entriesOf, List.length_mapIdx]
  exact length_slice_le hpart

end MqStudio.Sqs
