import MqStudio.Lib.RetainedLog
import MqStudio.Lib.Transition
import MqStudio.Model.Tail
import MqStudio.Rocketmq.Namespace

/-!
# The RocketMQ tail

`rocketmq/message_tail.go`: one poll asks the route for the queues of a topic,
every queue for its end, and pulls from the queues that have moved.

* `tailQueues`, `tailQueueEnds`, `tailMessages`: the poll, given what the name
  server and the brokers answered.
* `queueKey_inj`: a queue is named by its key.
-/

namespace MqStudio.Rocketmq

open Std (ExtTreeMap)
open Lib.Maps Lib.Tail Lib.Text
open Model

/-! ### Messages -/

/-- A message as the broker returns it. -/
structure MessageExt where
  topic : String
  queueId : Int
  queueOffset : Int
  storeTimestamp : Int
  msgId : String
  offsetMsgId : String
  body : String
  properties : ExtTreeMap String String compare

/-- The namespace is dropped from the two properties that hold a topic name. -/
def unwrapTopicProperties (ns : String) (properties : ExtTreeMap String String compare) :
    ExtTreeMap String String compare :=
  if ns = "" then properties
  else properties.map fun key value =>
    if key = "RETRY_TOPIC" ∨ key = "REAL_TOPIC" then unwrap ns value else value

def convertMessageExt (ns : String) (message : MessageExt) : MessageItem where
  id := 0
  topic := unwrap ns message.topic
  messageID := if trimSpace message.msgId = "" then message.offsetMsgId else trimSpace message.msgId
  tags := (message.properties["TAGS"]?).getD ""
  keys := (message.properties["KEYS"]?).getD ""
  queueID := message.queueId
  queueOffset := message.queueOffset
  storeTimestamp := message.storeTimestamp
  status :=
    if hasPrefix message.topic "%DLQ%" || hasPrefix message.topic "DLQ%" then .dlq
    else if hasPrefix message.topic "%RETRY%" || hasPrefix message.topic "RETRY%" then .retry
    else .normal
  body := message.body
  properties := unwrapTopicProperties ns message.properties

/-! ### Queues -/

structure BrokerData where
  brokerName : String
  brokerAddrs : ExtTreeMap String String compare

structure QueueData where
  brokerName : String
  readQueueNums : Int

/-- Where a topic's queues are; an entry may be nil. -/
structure TopicRouteData where
  brokerDatas : List (Option BrokerData)
  queueDatas : List (Option QueueData)

/-- One readable queue of a topic, with the address to pull it from. -/
structure TailQueue where
  node : String
  address : String
  queueID : Int
deriving DecidableEq

def queueKey (node : String) (queueID : Int) : String := node ++ ":" ++ toString queueID

def TailQueue.key (queue : TailQueue) : String := queueKey queue.node queue.queueID

/-- The broker's master, or any address it has. -/
def BrokerData.address (broker : BrokerData) : String :=
  let address := (broker.brokerAddrs["0"]?).getD ""
  if address = "" then ((broker.brokerAddrs.values.find? (· ≠ "")).getD "") else address

def addresses (brokers : List (Option BrokerData)) : ExtTreeMap String String compare :=
  brokers.foldl (fun found broker =>
    match broker with
    | none => found
    | some broker =>
      if broker.address ≠ "" then found.insert broker.brokerName broker.address else found) ∅

def queuesOf (found : ExtTreeMap String String compare) : Option QueueData → List TailQueue
  | none => []
  | some queueData =>
    let address := (found[queueData.brokerName]?).getD ""
    if queueData.readQueueNums ≤ 0 ∨ address = "" then []
    else (List.range queueData.readQueueNums.toNat).map fun queueID =>
      ⟨queueData.brokerName, address, queueID⟩

/-- The queues the route names. -/
def TopicRouteData.queues (route : TopicRouteData) : List TailQueue :=
  route.queueDatas.flatMap (queuesOf (addresses route.brokerDatas))

/-- Asks the route; the request may fail, and the answer may be nil. -/
def tailQueues (answer : Except String (Option TopicRouteData)) : Except String (List TailQueue) :=
  match answer with
  | .error err => .error ("获取 Topic 路由失败: " ++ err)
  | .ok none => .error "Topic 路由为空"
  | .ok (some route) =>
    if route.queues = [] then .error "未找到可读消息队列" else .ok route.queues

abbrev Offsets := ExtTreeMap String Int compare

/-- Asks every queue for its end; any of the requests may fail. -/
def tailQueueEnds (queues : List TailQueue) (answer : TailQueue → Option Int) :
    Except String Offsets :=
  if queues.all fun queue => (answer queue).isNone then .error "读取队列位点失败: Broker 未响应"
  else .ok (queues.foldl (fun ends queue =>
    match answer queue with
    | none => ends
    | some ending => ends.insert queue.key ending) ∅)

def TailCursor.known (cursor : TailCursor) : Offsets :=
  cursor.positions.foldl (fun known position =>
    known.insert (queueKey position.node position.queueID) position.offset) ∅

def sortPositions (positions : List QueuePosition) : List QueuePosition :=
  positions.insertionSort fun left right =>
    if left.node ≠ right.node then left.node < right.node else left.queueID ≤ right.queueID

/-! ### The poll -/

/-- What a pull comes back with. -/
structure PullResult where
  messages : List MessageExt
  nextBeginOffset : Int
  minOffset : Int

structure Pull where
  queue : TailQueue
  messages : List MessageExt
  next : Int
  dropped : Int
  failed : Bool

def defaultTailLimit : Int := 64

section

variable (known ends : Offsets)

/-- The position of a queue that is not pulled; a queue whose end could not be read, and that the
cursor has not seen, has none. -/
def settledAt (queue : TailQueue) : Option QueuePosition :=
  match known[queue.key]? with
  | none => (ends[queue.key]?).map fun ending => ⟨queue.node, queue.queueID, ending⟩
  | some offset =>
    if (ends[queue.key]?).getD 0 ≤ offset then some ⟨queue.node, queue.queueID, offset⟩ else none

/-- The queue has moved past where the cursor is. -/
def isBehind (queue : TailQueue) : Bool :=
  match known[queue.key]? with
  | none => false
  | some offset => offset < (ends[queue.key]?).getD 0

/-- The outcome of one pull. -/
def pullFrom (queue : TailQueue) (answer : Option PullResult) : Pull :=
  let offset := (known[queue.key]?).getD 0
  match answer with
  | none => ⟨queue, [], offset, 0, true⟩
  | some returned =>
    ⟨queue, returned.messages,
      if returned.nextBeginOffset < offset then offset else returned.nextBeginOffset,
      if offset < returned.minOffset then returned.minOffset - offset else 0, false⟩

end

/-- How many messages each pull may return. -/
def perQueue (limit : Int) (behind : Nat) : Int :=
  if limit / behind < 1 then 1 else limit / behind

def limitOf (limit : Int) : Int := if limit ≤ 0 then defaultTailLimit else limit

/-- What the name server and the brokers answer in one poll. -/
structure Answers where
  route : Except String (Option TopicRouteData)
  ending : TailQueue → Option Int
  pull : TailQueue → Option PullResult

/-- A poll, given what was answered. -/
def tailMessages (ns name : String) (cursor : TailCursor) (answers : Answers) :
    Except String TailBatch := do
  if wrap ns (trimSpace name) = "" then throw "Topic 名称不能为空"
  let queues ← tailQueues answers.route
  let ends ← tailQueueEnds queues answers.ending
  let known := TailCursor.known cursor
  let positions := queues.filterMap (settledAt known ends)
  let behind := queues.filter (isBehind known ends)
  if behind = [] then
    return ⟨[], ⟨sortPositions positions⟩, 0⟩
  let results := behind.map fun queue => pullFrom known queue (answers.pull queue)
  if results.all (·.failed) then throw "拉取消息失败: Broker 未响应"
  return ⟨((results.flatMap (·.messages)).map (convertMessageExt ns)).insertionSort
      fun left right => left.storeTimestamp ≤ right.storeTimestamp,
    ⟨sortPositions (positions ++ results.map fun result =>
      ⟨result.queue.node, result.queue.queueID, result.next⟩)⟩,
    (results.map (·.dropped)).sum⟩

/-! ### Keys -/

theorem colon_notMem_toDigits (n : Nat) : ':' ∉ Nat.toDigits 10 n := by
  intro h
  have := Nat.isDigit_of_mem_toDigits (by decide) (by decide) h
  revert this
  decide

theorem colon_notMem_toString (n : Int) : ':' ∉ (toString n).toList := by
  rw [Int.toString_eq_repr, Int.repr_eq_if]
  split <;> simp [colon_notMem_toDigits]

/-- What comes after the last colon, and what comes before it. -/
theorem eq_of_append_colon {a b c d : List Char} (hc : ':' ∉ c) (hd : ':' ∉ d)
    (h : a ++ ':' :: c = b ++ ':' :: d) : a = b ∧ c = d := by
  rcases List.append_eq_append_iff.mp h with ⟨e, rfl, he⟩ | ⟨e, rfl, he⟩
  · cases e with
    | nil => simpa using he
    | cons x e =>
      rw [List.cons_append, List.cons.injEq] at he
      exact absurd (he.2 ▸ by simp) hc
  · cases e with
    | nil => simpa [eq_comm] using he
    | cons x e =>
      rw [List.cons_append, List.cons.injEq] at he
      exact absurd (he.2 ▸ by simp) hd

/-- **A queue is named by its key.** -/
theorem queueKey_inj {node node' : String} {queueID queueID' : Int}
    (h : queueKey node queueID = queueKey node' queueID') : node = node' ∧ queueID = queueID' := by
  have hlist := congrArg String.toList h
  simp only [queueKey, String.toList_append, List.append_assoc] at hlist
  obtain ⟨hnode, hid⟩ := eq_of_append_colon (colon_notMem_toString _) (colon_notMem_toString _) hlist
  refine ⟨String.toList_inj.mp hnode, ?_⟩
  have := String.toList_inj.mp hid
  rw [Int.toString_eq_repr, Int.toString_eq_repr] at this
  exact Int.repr_injective this

end MqStudio.Rocketmq
