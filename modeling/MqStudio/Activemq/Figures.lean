import MqStudio.Activemq.ObjectName
import MqStudio.Lib.Batch

/-!
# The figures of ActiveMQ destinations

`activemq/destination.go` and the batches of `activemq/jolokia.go`: the attributes of all
destinations are read in one flat list, whose answers are cut back into rows.  A read may fail on
its own.  The row of an Artemis address sums over the queues that it stands for.

* `batchTolerant`, `listClassicDestinations`, `listArtemisDestinations`: the reads and the rows.
* `row_congr`: a row is computed from its own beans.
* `classic_list`, `artemis_list`: every row is made of the answers to its own reads.
-/

namespace MqStudio.Activemq.Figures

open Lib.Text Lib.Batch

/-! ### Jolokia -/

/-- A management bean, by what its object name names. -/
inductive MBean where
  | broker
  | destination (objectName : String)
  | address (address : String)
  | queue (address queue : String) (routing : RoutingType)
deriving DecidableEq

/-- A read of an attribute. -/
structure Request where
  mbean : MBean
  attr : String
deriving DecidableEq

/-- The JSON of an attribute.  A number is an integer that a float holds exactly. -/
inductive Value where
  | null
  | number (n : Int)
  | flag (b : Bool)
  | text (s : String)
  | texts (values : List String)
  | refs (objectNames : List String)

structure Response where
  status : Int
  value : Value
  errorType : String
  error : String

inductive Error where
  | jolokia (status : Int) (errorType message : String) (request : MBean)
  | results (answered asked : ℕ)
  | notObjectNames (kind : DestinationKind)
  | notNames

/-- The agent's answer to one HTTP request. -/
abbrev Server := List Request → Except Error (List Response)

/-- The value of one result, where it has one. -/
def Response.read (result : Response) : Option Value :=
  if result.status ≠ 200 then none else some result.value

def Response.failure (result : Response) (request : Request) : Option Error :=
  if result.status ≠ 200 then
    some (.jolokia result.status result.errorType result.error request.mbean)
  else none

def batchTolerant (server : Server) (requests : List Request) :
    Except Error (List (Option Value) × List (Option Error)) :=
  if requests = [] then .ok ([], [])
  else
    match server requests with
    | .error err => .error err
    | .ok raw =>
      if raw.length ≠ requests.length then .error (.results raw.length requests.length)
      else .ok (raw.map Response.read, raw.zipWith Response.failure requests)

/-- The first failure is the batch's. -/
def batch (server : Server) (requests : List Request) : Except Error (List (Option Value)) :=
  match batchTolerant server requests with
  | .error err => .error err
  | .ok (values, errs) =>
    match errs.reduceOption with
    | err :: _ => .error err
    | [] => .ok values

/-! ### Reading values -/

/-- A null is decoded into a zero. -/
def decodeNumber : Value → Option Int
  | .null => some 0
  | .number n => some n
  | _ => none

def decodeFlag : Value → Option Bool
  | .null => some false
  | .flag b => some b
  | _ => none

def decodeText : Value → Option String
  | .text s => if s = "" then none else some s
  | _ => none

def decodeRefs : Option Value → Option (List String)
  | some .null => some []
  | some (.refs objectNames) => some objectNames
  | _ => none

def decodeTexts : Option Value → Option (List String)
  | some .null => some []
  | some (.texts values) => some values
  | _ => none

def stringsOf (raw : Option Value) : List String := (decodeTexts raw).getD []

def intOr (raw : Option Value) (fallback : Int) : Int := (raw.bind decodeNumber).getD fallback

def int64Or (raw : Option Value) (fallback : Int) : Int := intOr raw fallback

abbrev Attributes := Std.ExtTreeMap String String compare

/-- Writes an attribute only where there is a text of it. -/
def put (attributes : Attributes) (key : String) (shown : Option String) : Attributes :=
  match shown with
  | none => attributes
  | some text => attributes.insert key text

def intText (raw : Option Value) : Option String := (raw.bind decodeNumber).map toString

def putInt (attributes : Attributes) (key : String) (raw : Option Value) : Attributes :=
  put attributes key (intText raw)

def putBool (attributes : Attributes) (key : String) (raw : Option Value) : Attributes :=
  put attributes key ((raw.bind decodeFlag).map toString)

def putString (attributes : Attributes) (key : String) (raw : Option Value) : Attributes :=
  put attributes key (raw.bind decodeText)

/-- The attributes of a read list, with the results that answered it. -/
abbrev ReadSet := String → Option Value

def attributeSet (attributes : List String) (values : List (Option Value)) : ReadSet := fun attr =>
  ((attributes.zip values).lookup attr).join

/-! ### Rows -/

structure Destination where
  name : String
  partitions : Int
  subscribers : Int
  depth : Int
  rateIn : Int
  rateOut : Int
  attributes : Attributes

def unknownMetric : Int := -1

def kindText : DestinationKind → String
  | .queue => "queue"
  | .topic => "topic"

def productText : Product → String
  | .classic => "classic"
  | .artemis => "artemis"

def internalPrefixes : Product → List String
  | .classic => ["ActiveMQ.Advisory."]
  | .artemis => ["$sys.", "activemq.notifications"]

def deadLetterNames : Product → List String
  | .classic => ["ActiveMQ.DLQ"]
  | .artemis => ["DLQ"]

def isInternal (p : Product) (name : String) : Bool := (internalPrefixes p).any (hasPrefix name)

def isDeadLetter (p : Product) (name : String) : Bool := decide (name ∈ deadLetterNames p)

/-- Queues before topics, and each by name. -/
def rowLE (left right : Destination) : Bool :=
  let leftKind := left.attributes["kind"]?
  let rightKind := right.attributes["kind"]?
  if leftKind ≠ rightKind then leftKind = some "queue" else decide (left.name ≤ right.name)

def sortDestinations (destinations : List Destination) : List Destination :=
  destinations.mergeSort rowLE

/-- The keys of the figures, and the attributes that they come from. -/
abbrev FigureTable := List (String × String)

def putInts (attributes : Attributes) (table : FigureTable) (read : ReadSet) : Attributes :=
  table.foldl (fun attributes entry => putInt attributes entry.1 (read entry.2)) attributes

/-! ### Classic -/

def classicDestinationAttributes : List String :=
  ["QueueSize", "ConsumerCount", "ProducerCount", "EnqueueCount", "DequeueCount", "DispatchCount",
    "ExpiredCount", "InFlightCount", "MemoryUsageByteCount", "MemoryPercentUsage",
    "AverageMessageSize", "Paused", "DLQ"]

def classicFigures : FigureTable :=
  [("consumerCount", "ConsumerCount"), ("producerCount", "ProducerCount"),
    ("enqueueCount", "EnqueueCount"), ("dequeueCount", "DequeueCount"),
    ("dispatchCount", "DispatchCount"), ("expiredCount", "ExpiredCount"),
    ("inFlightCount", "InFlightCount"), ("memoryUsage", "MemoryUsageByteCount"),
    ("memoryPercent", "MemoryPercentUsage"), ("averageMessageSize", "AverageMessageSize")]

def classicBrowseCap : ℕ := 400

def classicAttributes (name : String) (kind : DestinationKind) (read : ReadSet) : Attributes :=
  let attributes : Attributes :=
    .ofList [("product", productText .classic), ("kind", kindText kind),
      ("browseCap", toString classicBrowseCap)]
  let attributes := putInts attributes classicFigures read
  let attributes := putBool attributes "paused" (read "Paused")
  let attributes := putBool attributes "isDeadLetter" (read "DLQ")
  put attributes "isDeadLetter"
    (if attributes["isDeadLetter"]? ≠ some "true" ∧ isDeadLetter .classic name then some "true"
      else none)

def classicDestination (name : String) (kind : DestinationKind) (read : ReadSet) : Destination where
  name := name
  partitions := unknownMetric
  subscribers := intOr (read "ConsumerCount") unknownMetric
  depth := intOr (read "QueueSize") unknownMetric
  rateIn := unknownMetric
  rateOut := unknownMetric
  attributes := classicAttributes name kind read

/-- A destination of the broker's lists. -/
structure ClassicEntry where
  name : String
  kind : DestinationKind
  objectName : String

def classicEntry (includeInternal : Bool) (kind : DestinationKind) (objectName : String) :
    Option ClassicEntry :=
  match parseObjectName objectName with
  | none => none
  | some parsed =>
    let name := parsed.value "destinationName"
    if name = "" ∨ (!includeInternal && isInternal .classic name) then none
    else some ⟨name, kind, objectName⟩

def classicEntries (includeInternal : Bool) (queues topics : List String) : List ClassicEntry :=
  queues.filterMap (classicEntry includeInternal .queue) ++
    topics.filterMap (classicEntry includeInternal .topic)

def classicReads (entry : ClassicEntry) : List Request :=
  classicDestinationAttributes.map fun attr => ⟨.destination entry.objectName, attr⟩

def listClassicDestinations (server : Server) (includeInternal : Bool) :
    Except Error (List Destination) :=
  match batch server [⟨.broker, "Queues"⟩, ⟨.broker, "Topics"⟩] with
  | .error err => .error err
  | .ok values =>
    match decodeRefs (values[0]?).join, decodeRefs (values[1]?).join with
    | none, _ => .error (.notObjectNames .queue)
    | some _, none => .error (.notObjectNames .topic)
    | some queues, some topics =>
      let entries := classicEntries includeInternal queues topics
      match batchTolerant server (entries.flatMap classicReads) with
      | .error err => .error err
      | .ok (values, _) =>
        .ok (sortDestinations (entries.zipIdx.map fun p =>
          classicDestination p.1.name p.1.kind (attributeSet classicDestinationAttributes
            (values.drop (p.2 * classicDestinationAttributes.length)))))

/-! ### Artemis -/

def artemisAddressAttributes : List String :=
  ["RoutingTypes", "QueueCount", "QueueNames", "MessageCount", "AddressSize", "Internal",
    "AutoCreated", "Temporary", "Paused"]

def artemisQueueAttributes : List String :=
  ["MessageCount", "ConsumerCount", "MessagesAdded", "MessagesAcknowledged", "MessagesExpired",
    "DeliveringCount", "ScheduledCount", "PersistentSize", "Durable", "Filter", "DeadLetterAddress",
    "ExpiryAddress"]

/-- What is summed over the queues of a row, beside the depth. -/
def artemisFigures : FigureTable :=
  [("consumerCount", "ConsumerCount"), ("enqueueCount", "MessagesAdded"),
    ("dequeueCount", "MessagesAcknowledged"), ("expiredCount", "MessagesExpired"),
    ("inFlightCount", "DeliveringCount"), ("scheduledCount", "ScheduledCount"),
    ("memoryUsage", "PersistentSize")]

def artemisKindOf (routingTypes : Option Value) : DestinationKind :=
  if (stringsOf routingTypes).any (equalFold · "MULTICAST") then .topic else .queue

/-- The queues that carry the figures of an address. -/
def queueSetFor (kind : DestinationKind) (address : String) (queues : List String) : List String :=
  if kind = .topic then queues else if address ∈ queues then [address] else []

/-- The sum over the queues of a row, to which a queue that did not answer adds nothing. -/
def total (queueReads : List ReadSet) (attr : String) : Int :=
  (queueReads.map fun read => int64Or (read attr) 0).sum

def addressAttributes (address : String) (kind : DestinationKind) (addressRead : ReadSet) :
    Attributes :=
  let attributes : Attributes :=
    .ofList [("product", productText .artemis), ("kind", kindText kind), ("address", address)]
  let attributes := putInt attributes "queueCount" (addressRead "QueueCount")
  let attributes := putBool attributes "internal" (addressRead "Internal")
  let attributes := putBool attributes "autoCreated" (addressRead "AutoCreated")
  let attributes := putBool attributes "temporary" (addressRead "Temporary")
  let attributes := putBool attributes "paused" (addressRead "Paused")
  let types := stringsOf (addressRead "RoutingTypes")
  let attributes :=
    put attributes "routingTypes" (if types = [] then none else some (",".intercalate types))
  put attributes "isDeadLetter" (if isDeadLetter .artemis address then some "true" else none)

/-- The settings of a queue, for a row that has one. -/
def putSettings (attributes : Attributes) (queueReads : List ReadSet) : Attributes :=
  match queueReads with
  | [read] =>
    let attributes := putBool attributes "durable" (read "Durable")
    let attributes := putString attributes "filter" (read "Filter")
    let attributes := putString attributes "deadLetterAddress" (read "DeadLetterAddress")
    putString attributes "expiryAddress" (read "ExpiryAddress")
  | _ => attributes

def artemisAttributes (address : String) (kind : DestinationKind) (addressRead : ReadSet)
    (queueReads : List ReadSet) : Attributes :=
  let attributes := putSettings (addressAttributes address kind addressRead) queueReads
  if queueReads = [] then attributes
  else
    artemisFigures.foldl (fun attributes entry =>
      attributes.insert entry.1 (toString (total queueReads entry.2))) attributes

def artemisSubscribers (kind : DestinationKind) (addressRead : ReadSet)
    (queueReads : List ReadSet) : Int :=
  if kind = .topic then intOr (addressRead "QueueCount") unknownMetric
  else if queueReads = [] then unknownMetric
  else total queueReads "ConsumerCount"

def artemisDepth (kind : DestinationKind) (queueReads : List ReadSet) : Int :=
  if queueReads ≠ [] then total queueReads "MessageCount"
  else if kind = .topic then 0
  else unknownMetric

def artemisDestination (address : String) (kind : DestinationKind) (addressRead : ReadSet)
    (queueReads : List ReadSet) : Destination where
  name := address
  partitions := unknownMetric
  subscribers := artemisSubscribers kind addressRead queueReads
  depth := artemisDepth kind queueReads
  rateIn := unknownMetric
  rateOut := unknownMetric
  attributes := artemisAttributes address kind addressRead queueReads

/-- An address whose listing read succeeded. -/
structure Pending where
  address : String
  kind : DestinationKind
  read : ReadSet
  queues : List String

def pendingOf (address : String) (read : ReadSet) : Option Pending :=
  if (read "RoutingTypes").isNone then none
  else some ⟨address, artemisKindOf (read "RoutingTypes"), read, stringsOf (read "QueueNames")⟩

def addressReads (address : String) : List Request :=
  artemisAddressAttributes.map fun attr => ⟨.address address, attr⟩

def Pending.queueSet (item : Pending) : List String :=
  queueSetFor item.kind item.address item.queues

def queueReadsOf (item : Pending) (queue : String) : List Request :=
  artemisQueueAttributes.map fun attr =>
    ⟨.queue item.address queue item.kind.routing, attr⟩

/-- The next so many queues, from the cursor on. -/
def readQueues (values : List (Option Value)) : ℕ → ℕ → List ReadSet
  | 0, _ => []
  | n + 1, cursor =>
    attributeSet artemisQueueAttributes (values.drop cursor) ::
      readQueues values n (cursor + artemisQueueAttributes.length)

/-- The rows, each of which moves the cursor on by its queues. -/
def artemisRows (values : List (Option Value)) : List Pending → ℕ → List Destination
  | [], _ => []
  | item :: items, cursor =>
    artemisDestination item.address item.kind item.read
        (readQueues values item.queueSet.length cursor) ::
      artemisRows values items (cursor + item.queueSet.length * artemisQueueAttributes.length)

def listArtemisDestinations (server : Server) (includeInternal : Bool) :
    Except Error (List Destination) :=
  match batch server [⟨.broker, "AddressNames"⟩] with
  | .error err => .error err
  | .ok names =>
    match decodeTexts (names[0]?).join with
    | none => .error .notNames
    | some addresses =>
      let wanted := addresses.filter fun address =>
        includeInternal || !isInternal .artemis address
      match batchTolerant server (wanted.flatMap addressReads) with
      | .error err => .error err
      | .ok (values, _) =>
        let items := wanted.zipIdx.filterMap fun p => pendingOf p.1
          (attributeSet artemisAddressAttributes
            (values.drop (p.2 * artemisAddressAttributes.length)))
        match batchTolerant server (items.flatMap fun item =>
            item.queueSet.flatMap (queueReadsOf item)) with
        | .error err => .error err
        | .ok (queueValues, _) => .ok (sortDestinations (artemisRows queueValues items 0))


/-! ### The brokers -/

/-- A Classic broker: its lists of object names, and what it holds of each destination. -/
structure ClassicBroker where
  queues : List String
  topics : List String
  number : String → String → ℕ
  flag : String → String → Bool

def ClassicBroker.value (broker : ClassicBroker) (request : Request) : Option Value :=
  match request.mbean with
  | .broker =>
    if request.attr = "Queues" then some (.refs broker.queues)
    else if request.attr = "Topics" then some (.refs broker.topics)
    else none
  | .destination objectName =>
    if request.attr ∈ ["Paused", "DLQ"] then some (.flag (broker.flag objectName request.attr))
    else some (.number (broker.number objectName request.attr))
  | _ => none

/-- An Artemis broker: a queue is registered under its own routing type. -/
structure ArtemisBroker where
  addresses : List String
  routingTypes : String → List String
  queues : String → List String
  routing : String → String → RoutingType
  addressNumber : String → String → ℕ
  addressFlag : String → String → Bool
  queueNumber : String → String → String → ℕ
  queueFlag : String → String → String → Bool
  queueText : String → String → String → Option String

def ArtemisBroker.addressValue (broker : ArtemisBroker) (address attr : String) : Value :=
  if attr = "RoutingTypes" then .texts (broker.routingTypes address)
  else if attr = "QueueNames" then .texts (broker.queues address)
  else if attr ∈ ["Internal", "AutoCreated", "Temporary", "Paused"] then
    .flag (broker.addressFlag address attr)
  else .number (broker.addressNumber address attr)

def ArtemisBroker.queueValue (broker : ArtemisBroker) (address queue attr : String) : Value :=
  if attr = "Durable" then .flag (broker.queueFlag address queue attr)
  else if attr ∈ ["Filter", "DeadLetterAddress", "ExpiryAddress"] then
    match broker.queueText address queue attr with
    | none => .null
    | some text => .text text
  else .number (broker.queueNumber address queue attr)

def ArtemisBroker.value (broker : ArtemisBroker) (request : Request) : Option Value :=
  match request.mbean with
  | .broker => if request.attr = "AddressNames" then some (.texts broker.addresses) else none
  | .address address =>
    if address ∈ broker.addresses then some (broker.addressValue address request.attr) else none
  | .queue address queue routing =>
    if queue ∈ broker.queues address ∧ routing = broker.routing address queue then
      some (broker.queueValue address queue request.attr)
    else none
  | _ => none

inductive Broker where
  | classic (broker : ClassicBroker)
  | artemis (broker : ArtemisBroker)

def Broker.value : Broker → Request → Option Value
  | .classic broker => broker.value
  | .artemis broker => broker.value

/-- `ListDestinations`. -/
def Broker.list (broker : Broker) (server : Server) (includeInternal : Bool) :
    Except Error (List Destination) :=
  match broker with
  | .classic _ => listClassicDestinations server includeInternal
  | .artemis _ => listArtemisDestinations server includeInternal

structure Failure where
  status : Int
  errorType : String
  error : String
  failed : status ≠ 200

/-- The reads that fail: any of attributes, none of the broker's own lists. -/
structure Outage where
  failure : Request → Option Failure
  listed : ∀ attr, failure ⟨.broker, attr⟩ = none

/-- The agent answers each request of a batch; what is not registered it does not find. -/
def respond (broker : Broker) (outage : Outage) (request : Request) : Response :=
  match outage.failure request, broker.value request with
  | some failure, _ => ⟨failure.status, .null, failure.errorType, failure.error⟩
  | none, some value => ⟨200, value, "", ""⟩
  | none, none => ⟨404, .null, "javax.management.InstanceNotFoundException", ""⟩

def serve (broker : Broker) (outage : Outage) : Server := fun requests =>
  .ok (requests.map (respond broker outage))

abbrev Answers := Request → Option Value

/-- What is read. -/
def answers (broker : Broker) (outage : Outage) : Answers := fun request =>
  match outage.failure request with
  | some _ => none
  | none => broker.value request

theorem read_respond (broker : Broker) (outage : Outage) (request : Request) :
    (respond broker outage request).read = answers broker outage request := by
  rw [respond, answers]
  cases outage.failure request with
  | some failure =>
    dsimp only
    rw [Response.read, if_pos failure.failed]
  | none =>
    cases broker.value request with
    | some value => rfl
    | none => rfl

theorem failure_respond {broker : Broker} {outage : Outage} {request : Request} {value : Value}
    (h : answers broker outage request = some value) :
    (respond broker outage request).failure request = none := by
  have hread := (read_respond broker outage request).trans h
  rw [Response.read] at hread
  split at hread
  · cases hread
  case isFalse hok => rw [Response.failure, if_neg hok]

/-- **A batch of reads**: each has its own answer. -/
theorem batchTolerant_serve (broker : Broker) (outage : Outage) (requests : List Request) :
    ∃ errs, batchTolerant (serve broker outage) requests =
      .ok (requests.map (answers broker outage), errs) := by
  rw [batchTolerant]
  split
  case isTrue hnil => exact ⟨[], by rw [hnil]; rfl⟩
  case isFalse hsome =>
    refine ⟨(requests.map (respond broker outage)).zipWith Response.failure requests, ?_⟩
    rw [serve]
    dsimp only
    rw [if_neg (by simp), List.map_map]
    have hread : Response.read ∘ respond broker outage = answers broker outage :=
      funext (read_respond broker outage)
    rw [hread]

/-- A batch none of whose reads fails. -/
theorem batch_serve {broker : Broker} {outage : Outage} {requests : List Request}
    (h : ∀ request ∈ requests, ∃ value, answers broker outage request = some value) :
    batch (serve broker outage) requests = .ok (requests.map (answers broker outage)) := by
  have hread : Response.read ∘ respond broker outage = answers broker outage :=
    funext (read_respond broker outage)
  have herrs : ((requests.map (respond broker outage)).zipWith Response.failure
      requests).reduceOption = [] := by
    rw [List.zipWith_map_left, List.zipWith_self]
    refine List.filterMap_eq_nil_iff.mpr fun failure hfailure => ?_
    obtain ⟨request, hmem, rfl⟩ := List.mem_map.mp hfailure
    obtain ⟨value, hvalue⟩ := h request hmem
    exact failure_respond hvalue
  rw [batch, batchTolerant]
  by_cases hnil : requests = []
  · rw [hnil]
    rfl
  · rw [if_neg hnil, serve]
    dsimp only
    rw [if_neg (by simp)]
    dsimp only
    rw [herrs, List.map_map, hread]

/-- The answers to one row of reads. -/
def readSet (attributes : List String) (mbean : MBean) (answers : Answers) : ReadSet := fun attr =>
  if attr ∈ attributes then answers ⟨mbean, attr⟩ else none

theorem attributeSet_reads (attributes : List String) (mbean : MBean) (answers : Answers)
    (rest : List (Option Value)) :
    attributeSet attributes ((attributes.map fun attr => answers ⟨mbean, attr⟩) ++ rest) =
      readSet attributes mbean answers := by
  funext attr
  rw [attributeSet, lookup_zip_map attributes (fun attr => answers ⟨mbean, attr⟩), readSet]
  split <;> rfl


/-! ### Writing attributes -/

section Attributes

variable {attributes : Attributes} {key other : String}

theorem getElem?_put (attributes : Attributes) (key other : String) (shown : Option String) :
    (put attributes key shown)[other]? =
      if key = other then shown.or attributes[other]? else attributes[other]? := by
  cases shown with
  | none => simp [put]
  | some text =>
    rw [put, Std.ExtTreeMap.getElem?_insert]
    simp

theorem getElem?_put_ne (h : key ≠ other) (shown : Option String) :
    (put attributes key shown)[other]? = attributes[other]? := by
  rw [getElem?_put, if_neg h]

theorem getElem?_ofList_other {pairs : List (String × String)} (h : key ∉ pairs.map (·.1)) :
    (Std.ExtTreeMap.ofList pairs compare : Attributes)[key]? = none :=
  Std.ExtTreeMap.getElem?_ofList_of_contains_eq_false (by simpa using h)

theorem getElem?_putInts_other {table : FigureTable} (h : key ∉ table.map (·.1)) (read : ReadSet) :
    (putInts attributes table read)[key]? = attributes[key]? := by
  induction table generalizing attributes with
  | nil => rfl
  | cons entry table ih =>
    rw [List.map_cons, List.mem_cons, not_or] at h
    rw [putInts, List.foldl_cons]
    refine (ih h.2).trans ?_
    rw [putInt, getElem?_put_ne (Ne.symm h.1)]

/-- A figure is written where it has a value. -/
theorem getElem?_putInts {table : FigureTable} (hkeys : (table.map (·.1)).Nodup)
    {entry : String × String} (h : entry ∈ table) (hnone : attributes[entry.1]? = none)
    (read : ReadSet) : (putInts attributes table read)[entry.1]? = intText (read entry.2) := by
  induction table generalizing attributes with
  | nil => cases h
  | cons first table ih =>
    rw [List.map_cons, List.nodup_cons] at hkeys
    rw [putInts, List.foldl_cons]
    rcases List.mem_cons.mp h with rfl | h
    · refine (getElem?_putInts_other hkeys.1 read).trans ?_
      rw [putInt, getElem?_put, if_pos rfl, hnone, Option.or_none]
    · refine ih hkeys.2 h ?_
      have hne : first.1 ≠ entry.1 := fun he => hkeys.1 (he ▸ List.mem_map_of_mem h)
      rw [putInt, getElem?_put_ne hne, hnone]

theorem getElem?_classicAttributes {entry : String × String} (h : entry ∈ classicFigures)
    (name : String) (kind : DestinationKind) (read : ReadSet) :
    (classicAttributes name kind read)[entry.1]? = intText (read entry.2) := by
  have hfree : ∀ entry ∈ classicFigures, "isDeadLetter" ≠ entry.1 ∧ "paused" ≠ entry.1 ∧
      entry.1 ∉ ["product", "kind", "browseCap"] := by decide
  obtain ⟨hdead, hpaused, hbase⟩ := hfree entry h
  rw [classicAttributes]
  rw [getElem?_put_ne hdead, putBool, getElem?_put_ne hdead, putBool, getElem?_put_ne hpaused]
  exact getElem?_putInts (by decide) h (getElem?_ofList_other (by simpa using hbase)) read

/-- The keys that an address itself fills. -/
def addressKeys : List String :=
  ["product", "kind", "address", "queueCount", "internal", "autoCreated", "temporary", "paused",
    "routingTypes", "isDeadLetter"]

theorem getElem?_addressAttributes_other (h : key ∉ addressKeys) (address : String)
    (kind : DestinationKind) (addressRead : ReadSet) :
    (addressAttributes address kind addressRead)[key]? = none := by
  simp only [addressKeys, List.mem_cons, List.not_mem_nil, or_false, not_or] at h
  obtain ⟨hproduct, hkind, haddress, hcount, hinternal, hauto, htemporary, hpaused, htypes,
    hdead⟩ := h
  rw [addressAttributes]
  rw [getElem?_put_ne (Ne.symm hdead), getElem?_put_ne (Ne.symm htypes), putBool,
    getElem?_put_ne (Ne.symm hpaused), putBool, getElem?_put_ne (Ne.symm htemporary), putBool,
    getElem?_put_ne (Ne.symm hauto), putBool, getElem?_put_ne (Ne.symm hinternal), putInt,
    getElem?_put_ne (Ne.symm hcount)]
  exact getElem?_ofList_other (by simp [hproduct, hkind, haddress])

theorem getElem?_addressAttributes_queueCount (address : String) (kind : DestinationKind)
    (addressRead : ReadSet) :
    (addressAttributes address kind addressRead)["queueCount"]? =
      intText (addressRead "QueueCount") := by
  rw [addressAttributes]
  rw [getElem?_put_ne (by decide), getElem?_put_ne (by decide), putBool,
    getElem?_put_ne (by decide), putBool, getElem?_put_ne (by decide), putBool,
    getElem?_put_ne (by decide), putBool, getElem?_put_ne (by decide), putInt, getElem?_put,
    if_pos rfl, getElem?_ofList_other (by simp), Option.or_none]

theorem getElem?_putSettings_other
    (h : key ∉ ["durable", "filter", "deadLetterAddress", "expiryAddress"])
    (queueReads : List ReadSet) : (putSettings attributes queueReads)[key]? = attributes[key]? := by
  simp only [List.mem_cons, List.not_mem_nil, or_false, not_or] at h
  obtain ⟨hdurable, hfilter, hletter, hexpiry⟩ := h
  match queueReads with
  | [] => rfl
  | [read] =>
    rw [putSettings, putString, getElem?_put_ne (Ne.symm hexpiry), putString,
      getElem?_put_ne (Ne.symm hletter), putString, getElem?_put_ne (Ne.symm hfilter), putBool,
      getElem?_put_ne (Ne.symm hdurable)]
  | _ :: _ :: _ => rfl

theorem getElem?_insertAll_other {table : FigureTable} (h : key ∉ table.map (·.1))
    (text : String → String) :
    (table.foldl (fun attributes entry => attributes.insert entry.1 (text entry.2))
      attributes)[key]? = attributes[key]? := by
  induction table generalizing attributes with
  | nil => rfl
  | cons entry table ih =>
    rw [List.map_cons, List.mem_cons, not_or] at h
    rw [List.foldl_cons]
    refine (ih h.2).trans ?_
    rw [Std.ExtTreeMap.getElem?_insert, if_neg]
    simpa using Ne.symm h.1

theorem getElem?_insertAll {table : FigureTable} (hkeys : (table.map (·.1)).Nodup)
    {entry : String × String} (h : entry ∈ table) (text : String → String) :
    (table.foldl (fun attributes entry => attributes.insert entry.1 (text entry.2))
      attributes)[entry.1]? = some (text entry.2) := by
  induction table generalizing attributes with
  | nil => cases h
  | cons first table ih =>
    rw [List.map_cons, List.nodup_cons] at hkeys
    rw [List.foldl_cons]
    rcases List.mem_cons.mp h with rfl | h
    · refine (getElem?_insertAll_other hkeys.1 text).trans ?_
      rw [Std.ExtTreeMap.getElem?_insert_self]
    · exact ih hkeys.2 h

/-- The sums stand for a row that has queues. -/
theorem getElem?_artemisAttributes {entry : String × String} (h : entry ∈ artemisFigures)
    (address : String) (kind : DestinationKind) (addressRead : ReadSet)
    (queueReads : List ReadSet) :
    (artemisAttributes address kind addressRead queueReads)[entry.1]? =
      if queueReads = [] then none else some (toString (total queueReads entry.2)) := by
  have hfree : ∀ entry ∈ artemisFigures, entry.1 ∉ addressKeys ∧
      entry.1 ∉ ["durable", "filter", "deadLetterAddress", "expiryAddress"] := by decide
  obtain ⟨haddress, hsettings⟩ := hfree entry h
  rw [artemisAttributes]
  split
  · rw [getElem?_putSettings_other hsettings, getElem?_addressAttributes_other haddress]
  · exact getElem?_insertAll (by decide) h fun attr => toString (total queueReads attr)

theorem getElem?_artemisAttributes_queueCount (address : String) (kind : DestinationKind)
    (addressRead : ReadSet) (queueReads : List ReadSet) :
    (artemisAttributes address kind addressRead queueReads)["queueCount"]? =
      intText (addressRead "QueueCount") := by
  rw [artemisAttributes]
  split
  · rw [getElem?_putSettings_other (by decide), getElem?_addressAttributes_queueCount]
  · refine (getElem?_insertAll_other (by decide)
      fun attr => toString (total queueReads attr)).trans ?_
    rw [getElem?_putSettings_other (by decide), getElem?_addressAttributes_queueCount]

end Attributes


/-! ### Rows of their own answers -/

inductive Entry where
  | classic (entry : ClassicEntry)
  | artemis (address : String)

/-- The destinations whose listing read succeeded. -/
def Broker.entries (broker : Broker) (outage : Outage) (includeInternal : Bool) : List Entry :=
  match broker with
  | .classic b => (classicEntries includeInternal b.queues b.topics).map .classic
  | .artemis b =>
    ((b.addresses.filter fun address => includeInternal || !isInternal .artemis address).filter
      fun address =>
        (answers broker outage ⟨.address address, "RoutingTypes"⟩).isSome).map .artemis

/-- What is read of an address. -/
def addressRead (answers : Answers) (address : String) : ReadSet :=
  readSet artemisAddressAttributes (.address address) answers

def pending (answers : Answers) (address : String) : Pending where
  address := address
  kind := artemisKindOf (answers ⟨.address address, "RoutingTypes"⟩)
  read := addressRead answers address
  queues := stringsOf (answers ⟨.address address, "QueueNames"⟩)

/-- What is read of the queues of a row. -/
def Pending.queueReads (item : Pending) (answers : Answers) : List ReadSet :=
  item.queueSet.map fun queue =>
    readSet artemisQueueAttributes (.queue item.address queue item.kind.routing) answers

/-- The row of a destination, made of answers to reads of its own beans. -/
def row (answers : Answers) : Entry → Destination
  | .classic entry =>
    classicDestination entry.name entry.kind
      (readSet classicDestinationAttributes (.destination entry.objectName) answers)
  | .artemis address =>
    artemisDestination address (pending answers address).kind (addressRead answers address)
      ((pending answers address).queueReads answers)

/-- The beans of a destination. -/
def Entry.Owns : Entry → MBean → Prop
  | .classic entry, mbean => mbean = .destination entry.objectName
  | .artemis address, mbean =>
    mbean = .address address ∨ ∃ queue routing, mbean = .queue address queue routing

variable {broker : Broker} {outage : Outage}

theorem readSet_congr {attributes : List String} {mbean : MBean} {reading other : Answers}
    (h : ∀ attr, reading ⟨mbean, attr⟩ = other ⟨mbean, attr⟩) :
    readSet attributes mbean reading = readSet attributes mbean other := by
  funext attr
  rw [readSet, readSet, h]

/-- **A row is computed from its own beans only.** -/
theorem row_congr {entry : Entry} {reading other : Answers}
    (h : ∀ request : Request, entry.Owns request.mbean → reading request = other request) :
    row reading entry = row other entry := by
  cases entry with
  | classic entry =>
    rw [row, row, readSet_congr fun attr => h ⟨_, attr⟩ rfl]
  | artemis address =>
    have haddress : ∀ attr, reading ⟨.address address, attr⟩ = other ⟨.address address, attr⟩ :=
      fun attr => h _ (.inl rfl)
    have hread : addressRead reading address = addressRead other address := readSet_congr haddress
    have hpending : pending reading address = pending other address := by
      rw [pending, pending, haddress, haddress, hread]
    have hqueues : (pending other address).queueReads reading =
        (pending other address).queueReads other :=
      List.map_congr_left fun queue _ =>
        readSet_congr fun attr => h _ (.inr ⟨queue, _, rfl⟩)
    rw [row, row, hread, hpending, hqueues]

theorem answers_listed (attr : String) :
    answers broker outage ⟨.broker, attr⟩ = broker.value ⟨.broker, attr⟩ := by
  rw [answers, outage.listed]

/-- **The Classic list**: a row for each entry, cut out of one batch. -/
theorem classic_list (b : ClassicBroker) (outage : Outage) (includeInternal : Bool) :
    listClassicDestinations (serve (.classic b) outage) includeInternal =
      .ok (sortDestinations (((Broker.classic b).entries outage includeInternal).map
        (row (answers (.classic b) outage)))) := by
  set reading := answers (.classic b) outage with hreading
  have hqueues : reading ⟨.broker, "Queues"⟩ = some (.refs b.queues) := answers_listed _
  have htopics : reading ⟨.broker, "Topics"⟩ = some (.refs b.topics) := answers_listed _
  have hbatch : batch (serve (.classic b) outage) [⟨.broker, "Queues"⟩, ⟨.broker, "Topics"⟩] =
      .ok [some (.refs b.queues), some (.refs b.topics)] := by
    refine (batch_serve ?_).trans ?_
    · simp only [List.forall_mem_cons, List.not_mem_nil, false_imp_iff, implies_true, and_true]
      exact ⟨⟨_, hqueues⟩, ⟨_, htopics⟩⟩
    · rw [List.map_cons, List.map_singleton, ← hreading, hqueues, htopics]
  set entries := classicEntries includeInternal b.queues b.topics with hentries
  obtain ⟨errs, hvalues⟩ := batchTolerant_serve (.classic b) outage (entries.flatMap classicReads)
  have hflat : (entries.flatMap classicReads).map reading =
      entries.flatMap fun entry => classicDestinationAttributes.map fun attr =>
        reading ⟨.destination entry.objectName, attr⟩ := by
    rw [List.map_flatMap]
    refine List.flatMap_congr fun entry _ => ?_
    rw [classicReads, List.map_map]
    rfl
  have hrows := filterMap_zipIdx_drop (l := entries) (k := classicDestinationAttributes.length)
    (f := fun entry => classicDestinationAttributes.map fun attr =>
      reading ⟨.destination entry.objectName, attr⟩)
    (g := fun entry values => some (classicDestination entry.name entry.kind
      (attributeSet classicDestinationAttributes values)))
    (r := fun entry => some (row reading (.classic entry)))
    (fun entry _ => by rw [List.length_map])
    (fun entry _ rest => by rw [attributeSet_reads]; rfl)
  rw [List.filterMap_eq_map', List.filterMap_eq_map'] at hrows
  rw [listClassicDestinations, hbatch]
  dsimp only [List.getElem?_cons_zero, List.getElem?_cons_succ, Option.join_some, decodeRefs]
  rw [← hentries, hvalues, ← hreading, hflat]
  dsimp only
  rw [hrows, Broker.entries, List.map_map]
  rfl


/-- The answers to the queue reads of a row. -/
def queueAnswers (reading : Answers) (item : Pending) (queue : String) : List (Option Value) :=
  artemisQueueAttributes.map fun attr => reading ⟨.queue item.address queue item.kind.routing, attr⟩

theorem readQueues_eq {reading : Answers} {item : Pending} {values rest : List (Option Value)}
    {queues : List String} {cursor : ℕ}
    (h : values.drop cursor = queues.flatMap (queueAnswers reading item) ++ rest) :
    readQueues values queues.length cursor = queues.map fun queue =>
      readSet artemisQueueAttributes (.queue item.address queue item.kind.routing) reading := by
  induction queues generalizing cursor with
  | nil => rfl
  | cons queue queues ih =>
    rw [List.flatMap_cons, List.append_assoc] at h
    have hnext : values.drop (cursor + artemisQueueAttributes.length) =
        queues.flatMap (queueAnswers reading item) ++ rest := by
      rw [← List.drop_drop, h]
      exact List.drop_left' (by rw [queueAnswers, List.length_map])
    rw [List.length_cons, readQueues, List.map_cons, ih hnext, h, queueAnswers, attributeSet_reads]

/-- The cursor stands where the answers to the queues of the next row begin. -/
theorem artemisRows_eq {reading : Answers} {values : List (Option Value)} {items : List Pending}
    {cursor : ℕ} (h : values.drop cursor =
      items.flatMap fun item => item.queueSet.flatMap (queueAnswers reading item)) :
    artemisRows values items cursor = items.map fun item =>
      artemisDestination item.address item.kind item.read (item.queueReads reading) := by
  induction items generalizing cursor with
  | nil => rfl
  | cons item items ih =>
    rw [List.flatMap_cons] at h
    have hlength : (item.queueSet.flatMap (queueAnswers reading item)).length =
        item.queueSet.length * artemisQueueAttributes.length :=
      length_flatMap fun queue _ => by rw [queueAnswers, List.length_map]
    have hnext : values.drop (cursor + item.queueSet.length * artemisQueueAttributes.length) =
        items.flatMap fun item => item.queueSet.flatMap (queueAnswers reading item) := by
      rw [← List.drop_drop, h]
      exact List.drop_left' hlength
    rw [artemisRows, List.map_cons, ih hnext, readQueues_eq h]
    rfl

theorem pendingOf_addressRead (reading : Answers) (address : String) :
    pendingOf address (addressRead reading address) =
      if (reading ⟨.address address, "RoutingTypes"⟩).isSome then some (pending reading address)
      else none := by
  have htypes : addressRead reading address "RoutingTypes" =
      reading ⟨.address address, "RoutingTypes"⟩ := by
    rw [addressRead, readSet, if_pos (by decide)]
  have hqueues : addressRead reading address "QueueNames" =
      reading ⟨.address address, "QueueNames"⟩ := by
    rw [addressRead, readSet, if_pos (by decide)]
  rw [pendingOf, htypes, hqueues, pending]
  cases reading ⟨.address address, "RoutingTypes"⟩ <;> rfl

/-- **The Artemis list**: a row for each address whose routing types were read, cut out of two
batches. -/
theorem artemis_list (b : ArtemisBroker) (outage : Outage) (includeInternal : Bool) :
    listArtemisDestinations (serve (.artemis b) outage) includeInternal =
      .ok (sortDestinations (((Broker.artemis b).entries outage includeInternal).map
        (row (answers (.artemis b) outage)))) := by
  set reading := answers (.artemis b) outage with hreading
  have hnames : reading ⟨.broker, "AddressNames"⟩ = some (.texts b.addresses) := answers_listed _
  have hbatch : batch (serve (.artemis b) outage) [⟨.broker, "AddressNames"⟩] =
      .ok [some (.texts b.addresses)] := by
    refine (batch_serve ?_).trans ?_
    · simp only [List.forall_mem_cons, List.not_mem_nil, false_imp_iff, implies_true, and_true]
      exact ⟨_, hnames⟩
    · rw [List.map_singleton, ← hreading, hnames]
  set wanted := b.addresses.filter fun address => includeInternal || !isInternal .artemis address
    with hwanted
  obtain ⟨errs, hvalues⟩ := batchTolerant_serve (.artemis b) outage (wanted.flatMap addressReads)
  have hflat : (wanted.flatMap addressReads).map reading =
      wanted.flatMap fun address => artemisAddressAttributes.map fun attr =>
        reading ⟨.address address, attr⟩ := by
    rw [List.map_flatMap]
    refine List.flatMap_congr fun address _ => ?_
    rw [addressReads, List.map_map]
    rfl
  set items := (wanted.filter fun address =>
    (reading ⟨.address address, "RoutingTypes"⟩).isSome).map (pending reading) with hitems
  have hpending : wanted.zipIdx.filterMap (fun p => pendingOf p.1
      (attributeSet artemisAddressAttributes ((wanted.flatMap fun address =>
        artemisAddressAttributes.map fun attr => reading ⟨.address address, attr⟩).drop
          (p.2 * artemisAddressAttributes.length)))) = items := by
    refine (filterMap_zipIdx_drop
      (g := fun address values => pendingOf address (attributeSet artemisAddressAttributes values))
      (r := fun address =>
        if (reading ⟨.address address, "RoutingTypes"⟩).isSome then some (pending reading address)
        else none)
      (fun address _ => by rw [List.length_map])
      (fun address _ rest => by
        rw [attributeSet_reads]
        exact pendingOf_addressRead reading address)).trans ?_
    rw [hitems, ← List.filterMap_eq_map']
    exact List.filterMap_filter.symm
  obtain ⟨errs', hqueues⟩ := batchTolerant_serve (.artemis b) outage
    (items.flatMap fun item => item.queueSet.flatMap (queueReadsOf item))
  have hflat' : (items.flatMap fun item => item.queueSet.flatMap (queueReadsOf item)).map reading =
      items.flatMap fun item => item.queueSet.flatMap (queueAnswers reading item) := by
    rw [List.map_flatMap]
    refine List.flatMap_congr fun item _ => ?_
    rw [List.map_flatMap]
    refine List.flatMap_congr fun queue _ => ?_
    rw [queueReadsOf, List.map_map]
    rfl
  rw [listArtemisDestinations, hbatch]
  dsimp only [List.getElem?_cons_zero, Option.join_some, decodeTexts]
  rw [← hwanted, hvalues, ← hreading, hflat]
  dsimp only
  rw [hpending, hqueues, ← hreading, hflat']
  have hrows : artemisRows (items.flatMap fun item =>
      item.queueSet.flatMap (queueAnswers reading item)) items 0 = _ := artemisRows_eq rfl
  dsimp only
  rw [hrows, Broker.entries, hitems, List.map_map, List.map_map]
  rfl

/-- The list has a row for each entry, in some order. -/
theorem list_perm (broker : Broker) (outage : Outage) (includeInternal : Bool) :
    ∃ rows, broker.list (serve broker outage) includeInternal = .ok rows ∧
      rows.Perm ((broker.entries outage includeInternal).map (row (answers broker outage))) := by
  cases broker with
  | classic b => exact ⟨_, classic_list b outage includeInternal, List.mergeSort_perm _ _⟩
  | artemis b => exact ⟨_, artemis_list b outage includeInternal, List.mergeSort_perm _ _⟩

end MqStudio.Activemq.Figures
