import MqStudio.Lib.Encoding
import MqStudio.Lib.Tail
import MqStudio.Lib.Transition
import MqStudio.Model.Tail

/-!
# The Pulsar tail

`pulsar/message_tail.go`, with `message_id.go` and the message of `message_read.go`:
a poll finds out where the topic ends, or where the cursor it was passed stands,
opens a reader after that message and reads.  The end is the answer of a separate
request, which may fail.

* `openTail`, `readBatch`, `batchOf`: the poll.
* `World.Complete`: what was published after the first poll opened its reader, up to
  the cursor, was handed on once, and nothing that was there before.
* `complete_of_resolved`: that holds while the first poll finds the end of a topic
  that has one, and no later poll that was passed an empty cursor finds one behind
  a message that came in between.
-/

namespace MqStudio.Pulsar

open Std (ExtTreeMap)
open Lib.Encoding Lib.Maps Lib.Tail Lib.Transition
open Model

/-! ### Messages -/

structure MessageID where
  ledgerID : Int64
  entryID : Int64
  batchIdx : Int32
  partitionIdx : Int32
deriving DecidableEq

/-- Where a message stands in its topic: by ledger, entry and place in the batch. -/
abbrev Place := ℤ ×ₗ ℤ ×ₗ ℤ

/-- The place of an id.  What comes first is before every id. -/
def MessageID.order (id : MessageID) : WithBot Place :=
  ↑(toLex (id.ledgerID.toInt, toLex (id.entryID.toInt, id.batchIdx.toInt)))

/-- What the client gives of a message, its event time as it is shown. -/
structure Message where
  id : MessageID
  key : String
  payload : String
  properties : ExtTreeMap String String compare
  producerName : String
  orderingKey : String
  eventTime : Option String
  publishTime : Int
  redeliveryCount : Nat

def Message.order (message : Message) : WithBot Place := message.id.order

/-- The form the broker's own tooling prints. -/
def messageIDString (id : MessageID) : String :=
  id.ledgerID.toInt.repr ++ ":" ++ id.entryID.toInt.repr ++ ":" ++ id.partitionIdx.toInt.repr

def PropertyBatchIndex : String := "pulsar.batchIndex"
def PropertyProducer : String := "pulsar.producer"
def PropertyOrderingKey : String := "pulsar.orderingKey"
def PropertyEventTime : String := "pulsar.eventTime"
def PropertyRedeliveryCount : String := "pulsar.redeliveryCount"

/-- The properties of an item: the message's own, and what has no field of its own. -/
def itemProperties (message : Message) : ExtTreeMap String String compare :=
  let properties := message.properties.insert PropertyBatchIndex message.id.batchIdx.toInt.repr
  let properties := properties.insert PropertyProducer message.producerName
  let properties := if message.orderingKey ≠ "" then
    properties.insert PropertyOrderingKey message.orderingKey else properties
  let properties := match message.eventTime with
    | some time => properties.insert PropertyEventTime time
    | none => properties
  if 0 < message.redeliveryCount then
    properties.insert PropertyRedeliveryCount message.redeliveryCount.repr else properties

def messageItem (topic : String) (id : Int) (message : Message) : MessageItem where
  id := id
  topic := topic
  messageID := messageIDString message.id
  tags := ""
  keys := message.key
  queueID := message.id.partitionIdx.toInt
  queueOffset := message.id.entryID.toInt
  storeTimestamp := message.publishTime
  status := .normal
  body := message.payload
  properties := itemProperties message

/-! ### Positions -/

/-- How the client library writes an id down. -/
structure IDCodec where
  serialize : MessageID → List UInt8
  deserialize : List UInt8 → Option MessageID
  roundTrip : ∀ id, deserialize (serialize id) = some id
  nonempty : ∀ id, serialize id ≠ []

inductive PositionError where
  | noMessageID (queueID : Int)
  | unreadable (queueID : Int)
  | notMessageID (queueID : Int)
deriving DecidableEq

/-- The text of the error, without the cause it wraps. -/
def PositionError.text : PositionError → String
  | .noMessageID queueID => "tail position for partition " ++ queueID.repr ++ " carries no message id"
  | .unreadable queueID => "tail position for partition " ++ queueID.repr ++ " is unreadable"
  | .notMessageID queueID => "tail position for partition " ++ queueID.repr ++ " is not a message id"

variable (codec : IDCodec)

/-- The whole id goes in the node.  Nothing reads the partition and the entry back. -/
def positionOf (partition : Int32) (id : MessageID) : QueuePosition :=
  ⟨encodeToString (codec.serialize id), partition.toInt, id.entryID.toInt⟩

/-- Reads a position back into the id a reader can seek to. -/
def resumeFrom (position : QueuePosition) : Except PositionError MessageID :=
  if position.node = "" then .error (.noMessageID position.queueID)
  else
    match decodeString position.node with
    | none => .error (.unreadable position.queueID)
    | some raw =>
      match codec.deserialize raw with
      | none => .error (.notMessageID position.queueID)
      | some id => .ok id

/-! ### The poll -/

def readMaxResults : Int := 500

/-- The id of the newest message, or none: also where the request failed. -/
def lastMessageID (answer : Option MessageID) : Option MessageID :=
  match answer with
  | none => none
  | some id => if id.ledgerID.toInt < 0 ∨ id.entryID.toInt < 0 then none else some id

/-- The message the reader is opened after.  Where there is none, it is opened at the earliest. -/
def openTail (cursor : TailCursor) (answer : Option MessageID) :
    Except PositionError (Option MessageID) :=
  match cursor.positions with
  | position :: _ => (resumeFrom codec position).map some
  | [] => .ok (lastMessageID answer)

/-- What a reader does when it is asked for the next message. -/
inductive Delivery where
  | exhausted
  | message (message : Message)
  /-- The time of the poll is up. -/
  | expired
  | failed

/-- The loop: what was read so far, and the id the cursor is made from. -/
def readBatch (url : String) (limit : Int) (messages : List MessageItem) (last : Option MessageID) :
    List Delivery → Option (List MessageItem × Option MessageID)
  | [] => some (messages, last)
  | delivery :: rest =>
    if (messages.length : Int) < limit then
      match delivery with
      | .exhausted => some (messages, last)
      | .expired => some (messages, last)
      | .message message =>
        readBatch url limit (messages ++ [messageItem url (messages.length + 1) message])
          (some message.id) rest
      | .failed => none
    else some (messages, last)

/-- What a poll returns that opened its reader after `resumed`. -/
def batchOf (url : String) (cursor : TailCursor) (limit : Int) (resumed : Option MessageID)
    (deliveries : List Delivery) : Option TailBatch :=
  let limit := if limit ≤ 0 ∨ readMaxResults < limit then readMaxResults else limit
  match readBatch url limit [] resumed deliveries with
  | none => none
  | some (messages, none) => some ⟨messages, cursor, 0⟩
  | some (messages, some last) => some ⟨messages, ⟨[positionOf codec last.partitionIdx last]⟩, 0⟩

/-! ### The topic and its caller -/

/-- The messages of a topic, in the order they are delivered in. -/
structure TopicLog where
  entries : List Message
  sorted : entries.Pairwise fun a b => a.order < b.order

/-- Adds a message at the end. -/
def TopicLog.publish (log : TopicLog) (message : Message)
    (h : ∀ a ∈ log.entries, a.order < message.order) : TopicLog where
  entries := log.entries ++ [message]
  sorted := by
    refine List.pairwise_append.mpr ⟨log.sorted, List.pairwise_singleton _ _, fun a ha b hb => ?_⟩
    rw [List.mem_singleton.mp hb]
    exact h a ha

/-- Where a poll is: it knows which message its reader comes after, and it has opened that reader. -/
inductive Poll where
  | idle
  | opening (limit : Int) (resumed : Option MessageID)
  | reading (limit : Int) (resumed : Option MessageID)

/-- A topic and the caller that tails it with what it was handed.  `began` and `opened` are the
messages there were when the first poll began, and when it opened its reader. -/
structure World where
  url : String
  log : TopicLog
  cursor : TailCursor
  poll : Poll
  batches : List TailBatch
  began : Option (List Message)
  opened : Option (List Message)

def World.new (url : String) (log : TopicLog) : World := ⟨url, log, ⟨[]⟩, .idle, [], none, none⟩

inductive Label where
  | publish (message : Message)
  /-- A poll begins.  The answer is that of the request for the last message id. -/
  | begin (limit : Int) (answer : Option MessageID)
  | create
  | read (deliveries : List Delivery)
  /-- A poll fails. -/
  | fail

/-- The poll returns, and the caller keeps the cursor. -/
def World.handOn (w : World) (batch : TailBatch) : World :=
  { w with cursor := batch.cursor, poll := .idle, batches := w.batches ++ [batch] }

/-- No poll has returned yet. -/
def World.first (w : World) : Bool := w.batches.isEmpty

/-- The first poll begins with what there is. -/
def World.begins (w : World) : World :=
  if w.first then { w with began := some w.log.entries, opened := none } else w

/-- The first poll opens its reader. -/
def World.opens (w : World) : World :=
  if w.first then { w with opened := some w.log.entries } else w

def World.step (w : World) : Label → Option World
  | .publish message =>
    if h : ∀ a ∈ w.log.entries, a.order < message.order then
      some { w with log := w.log.publish message h }
    else none
  | .begin limit answer =>
    match w.poll with
    | .idle =>
      match openTail codec w.cursor answer with
      | .error _ => some w.begins
      | .ok resumed => some { w.begins with poll := .opening limit resumed }
    | _ => none
  | .create =>
    match w.poll with
    | .opening limit resumed => some { w.opens with poll := .reading limit resumed }
    | _ => none
  | .read deliveries =>
    match w.poll with
    | .reading limit resumed =>
      match batchOf codec w.url w.cursor limit resumed deliveries with
      | none => some { w with poll := .idle }
      | some batch => some (w.handOn batch)
    | _ => none
  | .fail => some { w with poll := .idle }

/-- The place of the message a reader comes after. -/
def startOrder (resumed : Option MessageID) : WithBot Place :=
  match resumed with
  | none => ⊥
  | some id => id.order

/-- The messages among what a reader did. -/
def delivered (deliveries : List Delivery) : List Message :=
  deliveries.filterMap fun delivery =>
    match delivery with
    | .message message => some message
    | _ => none

/-- An answer names the newest message, and a reader delivers in order what comes after the message
it was opened at. -/
def World.Allows (w : World) : Label → Prop
  | .begin _ answer => ∀ id, answer = some id → w.log.entries.getLast?.map (·.id) = some id
  | .read deliveries => ∀ limit resumed, w.poll = .reading limit resumed →
    delivered deliveries <+: w.log.entries.filter fun message => startOrder resumed < message.order
  | _ => True

def tailing : System World Label where
  Init w := ∃ url log, w = World.new url log
  Step w label v := w.step codec label = some v ∧ w.Allows label

/-- What tells one message of a topic from another: the id that is shown, and the batch index. -/
def nameOf (id : MessageID) : String × Option String :=
  (messageIDString id, some id.batchIdx.toInt.repr)

def itemName (item : MessageItem) : String × Option String :=
  (item.messageID, item.properties[PropertyBatchIndex]?)

/-- All messages that were handed on, in order. -/
def World.returned (w : World) : List (String × Option String) :=
  (w.batches.flatMap (·.messages)).map itemName

/-- **Nothing is lost and nothing replayed.** -/
structure World.Complete (w : World) : Prop where
  /-- A message published after the first poll opened its reader, and not after the last cursor, was
  handed on once. -/
  once : ∀ opened position id, w.opened = some opened →
    w.cursor.positions.head? = some position → resumeFrom codec position = .ok id →
    ∀ message ∈ w.log.entries, message ∉ opened → message.order ≤ id.order →
      w.returned.count (nameOf message.id) = 1
  /-- A message published before the first poll was not handed on. -/
  unreplayed : ∀ began, w.began = some began → ∀ message ∈ began, nameOf message.id ∉ w.returned

/-- The first poll finds out where the topic ends, unless it is empty.  A later poll that was passed
an empty cursor finds no end, unless nothing was published since the first one opened its reader. -/
def Resolved (w : World) : Label → Prop
  | .begin _ answer => w.cursor.positions = [] →
    match lastMessageID answer with
    | none => w.first → w.log.entries = []
    | some _ => w.first ∨ ∀ opened, w.opened = some opened → ∀ message ∈ w.log.entries,
      message ∈ opened
  | _ => True

/-! ### Ids -/

/-- A position names the id it was made from. -/
@[simp] theorem resumeFrom_positionOf (partition : Int32) (id : MessageID) :
    resumeFrom codec (positionOf codec partition id) = .ok id := by
  have hne := encodeToString_ne_empty (codec.nonempty id)
  simp [resumeFrom, positionOf, hne, decodeString_encodeToString, codec.roundTrip]

theorem toList_messageIDString (id : MessageID) :
    (messageIDString id).toList = [':'].intercalate [id.ledgerID.toInt.repr.toList,
      id.entryID.toInt.repr.toList, id.partitionIdx.toInt.repr.toList] := by
  simp [messageIDString, List.intercalate]

theorem messageIDString_inj {a b : MessageID} (h : messageIDString a = messageIDString b) :
    a.ledgerID.toInt = b.ledgerID.toInt ∧ a.entryID.toInt = b.entryID.toInt := by
  have hnot : ∀ n : ℤ, ':' ∉ n.repr.toList := fun n => notMem_repr (by decide) (by decide)
  have hlists := intercalate_inj (c := ':') (by simp [hnot]) (by simp [hnot]) (by simp) (by simp)
    ((toList_messageIDString a).symm.trans (h ▸ toList_messageIDString b))
  obtain ⟨hledger, hentry, -⟩ : _ ∧ _ ∧ _ := by simpa using hlists
  exact ⟨Int.repr_injective (String.toList_inj.mp hledger),
    Int.repr_injective (String.toList_inj.mp hentry)⟩

/-- **Two messages of one name are one.** -/
theorem order_eq_of_nameOf_eq {a b : MessageID} (h : nameOf a = nameOf b) : a.order = b.order := by
  obtain ⟨hid, hbatch⟩ := Prod.mk.inj h
  obtain ⟨hledger, hentry⟩ := messageIDString_inj hid
  have hidx := Int.repr_injective (Option.some.inj hbatch)
  rw [MessageID.order, MessageID.order, hledger, hentry, hidx]

/-- No property of the message, or of the item, takes the place of the batch index. -/
theorem itemProperties_batchIndex (message : Message) :
    (itemProperties message)[PropertyBatchIndex]? = some message.id.batchIdx.toInt.repr := by
  have hne : ∀ name ∈ [PropertyProducer, PropertyOrderingKey, PropertyEventTime,
      PropertyRedeliveryCount], name ≠ PropertyBatchIndex := by decide
  have hproducer := hne PropertyProducer (by simp)
  have hkey := hne PropertyOrderingKey (by simp)
  have htime := hne PropertyEventTime (by simp)
  have hcount := hne PropertyRedeliveryCount (by simp)
  rw [itemProperties]
  cases message.eventTime <;> by_cases hk : message.orderingKey = "" <;>
    by_cases hr : 0 < message.redeliveryCount <;>
    simp [hk, hr, ExtTreeMap.getElem_insert, hproducer, hkey, htime, hcount]

/-- An item is told apart by the id of its message. -/
@[simp] theorem itemName_messageItem (topic : String) (id : Int) (message : Message) :
    itemName (messageItem topic id message) = nameOf message.id :=
  Prod.ext rfl (itemProperties_batchIndex message)

/-! ### One poll -/

/-- **The loop** hands on the messages a reader delivers first, and remembers the last of them. -/
theorem readBatch_spec {url : String} {limit : Int} {deliveries : List Delivery} :
    ∀ {messages out : List MessageItem} {last last' : Option MessageID},
      readBatch url limit messages last deliveries = some (out, last') →
      ∃ taken, taken <+: delivered deliveries ∧
        out.map itemName = messages.map itemName ++ taken.map (fun message => nameOf message.id) ∧
        last' = (taken.getLast?.map (·.id)).or last := by
  induction deliveries with
  | nil =>
    rintro messages out last last' h
    obtain ⟨rfl, rfl⟩ := Prod.mk.inj (Option.some.inj h)
    exact ⟨[], List.nil_prefix, by simp, by simp⟩
  | cons delivery rest ih =>
    intro messages out last last' h
    have hstop : readBatch url limit messages last (delivery :: rest) = some (messages, last) →
        ∃ taken, taken <+: delivered (delivery :: rest) ∧
          out.map itemName = messages.map itemName ++ taken.map (fun message => nameOf message.id) ∧
          last' = (taken.getLast?.map (·.id)).or last := by
      intro hs
      obtain ⟨rfl, rfl⟩ := Prod.mk.inj (Option.some.inj (hs.symm.trans h))
      exact ⟨[], List.nil_prefix, by simp, by simp⟩
    by_cases hlimit : (messages.length : Int) < limit
    · cases delivery with
      | exhausted => exact hstop (by rw [readBatch, if_pos hlimit])
      | expired => exact hstop (by rw [readBatch, if_pos hlimit])
      | failed =>
        rw [readBatch, if_pos hlimit] at h
        cases h
      | message message =>
        rw [readBatch, if_pos hlimit] at h
        obtain ⟨taken, hpre, hout, hlast⟩ := ih h
        refine ⟨message :: taken, ?_, ?_, ?_⟩
        · exact List.prefix_cons_iff.mpr (Or.inr ⟨taken, rfl, hpre⟩)
        · rw [hout]
          simp
        · rw [hlast]
          cases taken with
          | nil => rfl
          | cons b taken =>
            rw [List.getLast?_cons_cons, List.getLast?_cons]
            rfl
    · exact hstop (by cases delivery <;> rw [readBatch, if_neg hlimit])

theorem startOrder_or (taken : List Message) (last : Option MessageID) :
    startOrder ((taken.getLast?.map (·.id)).or last) =
      reached Message.order (startOrder last) taken := by
  induction taken using List.reverseRecOn with
  | nil => simp
  | append_singleton taken message _ =>
    rw [reached_concat]
    simp [startOrder, Message.order]

/-- **What a poll returns**: the messages its reader delivers first, and a cursor at the last of
them, or where the reader started. -/
theorem batchOf_spec {url : String} {cursor : TailCursor} {limit : Int}
    {resumed : Option MessageID} {deliveries : List Delivery} {batch : TailBatch}
    (h : batchOf codec url cursor limit resumed deliveries = some batch) :
    ∃ taken last, taken <+: delivered deliveries ∧
      batch.messages.map itemName = taken.map (fun message => nameOf message.id) ∧
      startOrder last = reached Message.order (startOrder resumed) taken ∧
      (∀ id, resumed = some id → last ≠ none) ∧
      ((last = none ∧ taken = [] ∧ batch.cursor = cursor) ∨
        ∃ id, last = some id ∧ batch.cursor = ⟨[positionOf codec id.partitionIdx id]⟩) := by
  rw [batchOf] at h
  split at h
  · cases h
  · rename_i messages hread
    obtain rfl := Option.some.inj h
    obtain ⟨taken, hpre, hout, hlast⟩ := readBatch_spec hread
    obtain ⟨hgot, rfl⟩ := Option.or_eq_none_iff.mp hlast.symm
    refine ⟨taken, none, hpre, by simpa using hout, ?_, nofun, Or.inl ⟨rfl, ?_, rfl⟩⟩
    · rw [← startOrder_or, ← hlast]
    · simpa using hgot
  · rename_i messages last hread
    obtain rfl := Option.some.inj h
    obtain ⟨taken, hpre, hout, hlast⟩ := readBatch_spec hread
    refine ⟨taken, some last, hpre, by simpa using hout, ?_, by simp, Or.inr ⟨last, rfl, rfl⟩⟩
    rw [← startOrder_or, ← hlast]

theorem lastMessageID_eq {answer : Option MessageID} {id : MessageID}
    (h : lastMessageID answer = some id) : answer = some id := by
  cases answer with
  | none => cases h
  | some newest =>
    simp only [lastMessageID] at h
    split at h
    · cases h
    · exact h

/-! ### Every run -/

/-- A place before everything, or that of a message of the topic. -/
def TopicLog.Holds (log : TopicLog) (place : WithBot Place) : Prop :=
  place = ⊥ ∨ ∃ message ∈ log.entries, message.order = place

variable {log : TopicLog} {lo : WithBot Place} {message : Message}

theorem TopicLog.Holds.publish (h : log.Holds lo)
    (hnew : ∀ a ∈ log.entries, a.order < message.order) : (log.publish message hnew).Holds lo := by
  refine h.imp_right ?_
  rintro ⟨a, ha, rfl⟩
  exact ⟨a, List.mem_append_left _ ha, rfl⟩

/-- What is published comes after every place of the topic. -/
theorem TopicLog.Holds.lt_of_new (h : log.Holds lo)
    (hnew : ∀ a ∈ log.entries, a.order < message.order) : lo < message.order := by
  rcases h with rfl | ⟨a, ha, rfl⟩
  · exact WithBot.bot_lt_coe _
  · exact hnew a ha

/-- The newest message comes after all others. -/
theorem TopicLog.le_newest {id : MessageID} (h : log.entries.getLast?.map (·.id) = some id) :
    log.Holds id.order ∧ ∀ a ∈ log.entries, a.order ≤ id.order := by
  obtain ⟨newest, hlast, rfl⟩ := Option.map_eq_some_iff.mp h
  have hmem := List.mem_of_getLast? hlast
  refine ⟨Or.inr ⟨newest, hmem, rfl⟩, fun a ha => ?_⟩
  have hreached : reached Message.order ⊥ log.entries = newest.order := by
    rw [reached, hlast]
    rfl
  exact (le_reached log.sorted ha ⊥).trans (le_of_eq hreached)

variable {w v : World}

/-- The tail owes the caller what comes after `lo`: nothing that was there before the first poll, and
everything that was published since it opened its reader. -/
structure World.Since (w : World) (lo : WithBot Place) : Prop where
  began : ∃ began, w.began = some began ∧ ∀ message ∈ began, message.order ≤ lo
  opened : ∀ opened, w.opened = some opened → ∀ message ∈ w.log.entries, message ∉ opened →
    lo < message.order
  held : w.log.Holds lo

theorem World.Since.publish (h : w.Since lo)
    (hnew : ∀ a ∈ w.log.entries, a.order < message.order) :
    { w with log := w.log.publish message hnew }.Since lo := by
  refine ⟨h.began, fun opened ho a ha hnot => ?_, h.held.publish hnew⟩
  rcases List.mem_append.mp ha with ha | ha
  · exact h.opened opened ho a ha hnot
  · rw [List.mem_singleton.mp ha]
    exact h.held.lt_of_new hnew

/-- What the caller knows: nothing yet, an empty cursor and no message, or what it followed. -/
inductive World.Followed (w : World) : Prop
  | opening : w.cursor.positions = [] → w.batches = [] → w.Followed
  | waiting : w.cursor.positions = [] → w.batches ≠ [] → w.returned = [] → w.Since ⊥ → w.Followed
  | resumed {id : MessageID} {lo : WithBot Place} {got : List Message} :
    w.cursor.positions = [positionOf codec id.partitionIdx id] → w.batches ≠ [] → w.Since lo →
    w.log.Holds id.order → Covers Message.order w.log.entries [] lo id.order got →
    w.returned = got.map (fun message => nameOf message.id) → w.Followed

variable {codec}

theorem World.Followed.publish (h : w.Followed codec)
    (hnew : ∀ a ∈ w.log.entries, a.order < message.order) :
    { w with log := w.log.publish message hnew }.Followed codec := by
  rcases h with ⟨hc, hb⟩ | ⟨hc, hb, hret, hs⟩ | ⟨hc, hb, hs, hheld, hcovers, hret⟩
  · exact .opening hc hb
  · exact .waiting hc hb hret (hs.publish hnew)
  · refine .resumed hc hb (hs.publish hnew) (hheld.publish hnew) (hcovers.grow ?_) hret
    intro a ha _
    rw [List.mem_singleton.mp ha]
    exact hheld.lt_of_new hnew

theorem World.Followed.withPoll (h : w.Followed codec) (poll : Poll) :
    { w with poll := poll }.Followed codec := by
  rcases h with ⟨hc, hb⟩ | ⟨hc, hb, hret, ⟨hbegan, hopened, hheld⟩⟩ |
    ⟨hc, hb, ⟨hbegan, hopened, hheld⟩, hholds, hcovers, hret⟩
  · exact .opening hc hb
  · exact .waiting hc hb hret ⟨hbegan, hopened, hheld⟩
  · exact .resumed hc hb ⟨hbegan, hopened, hheld⟩ hholds hcovers hret

/-- The message that the reader of a poll comes after. -/
def Poll.resumed : Poll → Option (Option MessageID)
  | .idle => none
  | .opening _ resumed => some resumed
  | .reading _ resumed => some resumed

variable (codec) in
/-- A poll starts where the tail began, or where the cursor stands. -/
structure World.Sound (w : World) : Prop where
  followed : w.Followed codec
  starts : ∀ resumed, w.poll.resumed = some resumed →
    (w.cursor.positions = [] ∧ w.Since (startOrder resumed)) ∨
      ∃ id, w.cursor.positions = [positionOf codec id.partitionIdx id] ∧ resumed = some id

theorem sound_new (url : String) (log : TopicLog) : (World.new url log).Sound codec :=
  ⟨.opening rfl rfl, nofun⟩

/-- A poll ends without a batch. -/
theorem World.Sound.idle (h : w.Sound codec) : { w with poll := .idle }.Sound codec :=
  ⟨h.followed.withPoll .idle, nofun⟩

theorem World.Sound.publish (h : w.Sound codec)
    (hnew : ∀ a ∈ w.log.entries, a.order < message.order) :
    { w with log := w.log.publish message hnew }.Sound codec := by
  refine ⟨h.followed.publish hnew, fun resumed hp => ?_⟩
  exact (h.starts resumed hp).imp_left fun ⟨hc, hs⟩ => ⟨hc, hs.publish hnew⟩

theorem begins_of_batches (h : w.batches ≠ []) : w.begins = w := by
  simp [World.begins, World.first, h]

/-- **A poll begins** at the end of the topic, or where the cursor stands. -/
theorem World.Sound.begin (h : w.Sound codec) {limit : Int} {answer resumed : Option MessageID}
    (hallows : w.Allows (.begin limit answer)) (hresolved : Resolved w (.begin limit answer))
    (hopen : openTail codec w.cursor answer = .ok resumed) :
    { w.begins with poll := .opening limit resumed }.Sound codec := by
  rcases h.followed with ⟨hc, hb⟩ | ⟨hc, hb, hret, hs⟩ | ⟨hc, hb, hs, hheld, hcovers, hret⟩
  · have hfirst : w.first := by simp [World.first, hb]
    rw [openTail, hc] at hopen
    obtain rfl := Except.ok.inj hopen
    have hguard := hresolved hc
    rw [World.begins, if_pos hfirst]
    refine ⟨.opening hc hb, ?_⟩
    rintro resumed ⟨⟩
    refine Or.inl ⟨hc, ?_⟩
    cases hlast : lastMessageID answer with
    | none =>
      rw [hlast] at hguard
      refine ⟨⟨_, rfl, ?_⟩, nofun, Or.inl rfl⟩
      rw [hguard hfirst]
      simp
    | some id =>
      obtain ⟨hheld, hle⟩ := TopicLog.le_newest (hallows id (lastMessageID_eq hlast))
      exact ⟨⟨_, rfl, hle⟩, nofun, hheld⟩
  · rw [begins_of_batches hb]
    rw [openTail, hc] at hopen
    obtain rfl := Except.ok.inj hopen
    have hguard := hresolved hc
    refine ⟨h.followed.withPoll _, ?_⟩
    rintro resumed ⟨⟩
    refine Or.inl ⟨hc, ?_⟩
    cases hlast : lastMessageID answer with
    | none => exact ⟨hs.began, hs.opened, hs.held⟩
    | some id =>
      rw [hlast] at hguard
      obtain ⟨began, hbegan, hle⟩ := hs.began
      obtain ⟨hheld, -⟩ := TopicLog.le_newest (hallows id (lastMessageID_eq hlast))
      refine ⟨⟨began, hbegan, fun a ha => (hle a ha).trans bot_le⟩, fun opened ho a ha hnot => ?_,
        hheld⟩
      exact absurd (hguard.resolve_left (by simpa [World.first] using hb) opened ho a ha) hnot
  · rename_i id lo got
    rw [begins_of_batches hb]
    refine ⟨h.followed.withPoll _, ?_⟩
    rintro resumed' ⟨⟩
    refine Or.inr ⟨id, hc, ?_⟩
    rw [openTail, hc] at hopen
    simpa [Except.map] using hopen.symm

/-- **A reader is opened**: for the first poll, what comes is owed to the caller from now on. -/
theorem World.Sound.create (h : w.Sound codec) {limit : Int} {resumed : Option MessageID}
    (hp : w.poll = .opening limit resumed) :
    { w.opens with poll := .reading limit resumed }.Sound codec := by
  have hstarts := h.starts resumed (by rw [hp]; rfl)
  by_cases hfirst : w.first
  · rw [World.opens, if_pos hfirst]
    have hb : w.batches = [] := by simpa [World.first] using hfirst
    constructor
    · rcases h.followed with ⟨hc, -⟩ | ⟨-, hne, -, -⟩ | ⟨-, hne, -, -, -, -⟩
      · exact .opening hc hb
      · exact absurd hb hne
      · exact absurd hb hne
    · rintro resumed ⟨⟩
      refine hstarts.imp_left fun ⟨hc, hs⟩ => ⟨hc, hs.began, ?_, hs.held⟩
      rintro opened ⟨⟩ a ha hnot
      exact absurd ha hnot
  · rw [World.opens, if_neg hfirst]
    refine ⟨h.followed.withPoll _, ?_⟩
    rintro resumed ⟨⟩
    exact hstarts.imp_left fun ⟨hc, hs⟩ => ⟨hc, hs.began, hs.opened, hs.held⟩

/-- **A poll returns** what comes after its start, with no message left out. -/
theorem World.Sound.read (h : w.Sound codec) {limit : Int} {resumed : Option MessageID}
    {deliveries : List Delivery} {batch : TailBatch} (hp : w.poll = .reading limit resumed)
    (hallows : w.Allows (.read deliveries))
    (hbatch : batchOf codec w.url w.cursor limit resumed deliveries = some batch) :
    (w.handOn batch).Sound codec := by
  obtain ⟨taken, last, hpre, hmessages, hlast, hkept, hcursor⟩ := batchOf_spec codec hbatch
  have hread : Covers Message.order w.log.entries [] (startOrder resumed) (startOrder last) taken :=
    hlast ▸ Covers.read w.log.sorted (hpre.trans (hallows limit resumed hp))
  have hne : (w.handOn batch).batches ≠ [] := by simp [World.handOn]
  have hreturned : (w.handOn batch).returned =
      w.returned ++ taken.map fun message => nameOf message.id := by
    simp [World.returned, World.handOn, hmessages]
  have hholds : w.log.Holds (startOrder resumed) → w.log.Holds (startOrder last) := by
    intro hstart
    by_cases hnil : taken = []
    · rwa [hlast, hnil]
    · obtain ⟨a, ha, hreached⟩ := reached_mem Message.order (startOrder resumed) hnil
      exact Or.inr ⟨a, hread.genuine a ha, by rw [hlast, hreached]⟩
  refine ⟨?_, nofun⟩
  rcases h.starts resumed (by rw [hp]; rfl) with ⟨hc, hs⟩ | ⟨id, hc, rfl⟩
  · -- The tail begins with this poll, so nothing was handed on before.
    have hnothing : w.returned = [] := by
      rcases h.followed with ⟨-, hb⟩ | ⟨-, -, hret, -⟩ | ⟨hpos, -, -, -, -, -⟩
      · simp [World.returned, hb]
      · exact hret
      · rw [hc] at hpos
        cases hpos
    rw [hnothing, List.nil_append] at hreturned
    rcases hcursor with ⟨rfl, rfl, hcur⟩ | ⟨id, rfl, hcur⟩
    · have hbot : startOrder resumed = ⊥ := hlast.symm
      rw [hbot] at hs
      exact .waiting (by rw [World.handOn, hcur]; exact hc) hne hreturned
        ⟨hs.began, hs.opened, hs.held⟩
    · exact .resumed (by rw [World.handOn, hcur]) hne ⟨hs.began, hs.opened, hs.held⟩
        (hholds hs.held) hread hreturned
  · rcases h.followed with ⟨hpos, -⟩ | ⟨hpos, -, -, -⟩ | ⟨hpos, -, hs, hheld, hcovers, hret⟩
    · rw [hc] at hpos
      cases hpos
    · rw [hc] at hpos
      cases hpos
    · rename_i standing lo got
      have hsame : id = standing := by
        have := congrArg (resumeFrom codec) (List.cons.inj (hc.symm.trans hpos)).1
        rw [resumeFrom_positionOf, resumeFrom_positionOf] at this
        exact Except.ok.inj this
      subst hsame
      rcases hcursor with ⟨rfl, -, -⟩ | ⟨next, rfl, hcur⟩
      · exact absurd rfl (hkept id rfl)
      · refine .resumed (by rw [World.handOn, hcur]) hne ⟨hs.began, hs.opened, hs.held⟩
          (hholds hheld) (hcovers.trans hread) ?_
        rw [hreturned, hret, List.map_append]

theorem sound_step {label : Label} (h : w.Sound codec) (hs : w.step codec label = some v)
    (hallows : w.Allows label) (hresolved : Resolved w label) : v.Sound codec := by
  cases label with
  | publish message =>
    simp only [World.step] at hs
    split at hs
    · rename_i hnew
      exact Option.some.inj hs ▸ h.publish hnew
    · cases hs
  | begin limit answer =>
    cases hp : w.poll <;> simp only [World.step, hp, reduceCtorEq] at hs
    split at hs
    · rename_i error hopen
      -- A cursor that a poll returned can be read back.
      rcases h.followed with ⟨hc, -⟩ | ⟨hc, -, -, -⟩ | ⟨hc, -, -, -, -, -⟩
      all_goals rw [openTail, hc] at hopen
      · cases hopen
      · cases hopen
      · simp [Except.map] at hopen
    · rename_i resumed hopen
      exact Option.some.inj hs ▸ h.begin hallows hresolved hopen
  | create =>
    cases hp : w.poll <;> simp only [World.step, hp, reduceCtorEq] at hs
    exact Option.some.inj hs ▸ h.create hp
  | read deliveries =>
    cases hp : w.poll <;> simp only [World.step, hp, reduceCtorEq] at hs
    split at hs
    · exact Option.some.inj hs ▸ h.idle
    · rename_i batch hbatch
      exact Option.some.inj hs ▸ h.read hp hallows hbatch
  | fail => exact Option.some.inj hs ▸ h.idle

theorem World.Sound.complete (h : w.Sound codec) : w.Complete codec := by
  rcases h.followed with ⟨hc, hb⟩ | ⟨hc, hb, hret, hs⟩ | ⟨hc, hb, hs, hheld, hcovers, hret⟩
  · exact ⟨by simp [hc], by simp [World.returned, hb]⟩
  · exact ⟨by simp [hc], by simp [hret]⟩
  · rename_i id lo got
    have hname : ∀ {a b : Message}, nameOf a.id = nameOf b.id → a.order = b.order :=
      order_eq_of_nameOf_eq
    constructor
    · intro opened position last ho hpos hlast message hm hnot hle
      rw [hc] at hpos
      obtain rfl := Option.some.inj hpos
      rw [resumeFrom_positionOf] at hlast
      obtain rfl := Except.ok.inj hlast
      have hgot : message ∈ got :=
        (hcovers.complete message hm (hs.opened opened ho message hm hnot) hle).resolve_right (by simp)
      have hnodup : (got.map fun message => nameOf message.id).Nodup := by
        refine List.pairwise_map.mpr (hcovers.sorted.imp fun hlt heq => ?_)
        exact absurd (hname heq) hlt.ne
      rw [hret]
      exact List.count_eq_one_of_mem hnodup (List.mem_map.mpr ⟨message, hgot, rfl⟩)
    · intro began hbegan message hm hin
      obtain ⟨began', hbegan', hle⟩ := hs.began
      obtain rfl := Option.some.inj (hbegan.symm.trans hbegan')
      rw [hret] at hin
      obtain ⟨a, ha, heq⟩ := List.mem_map.mp hin
      have hafter := (hcovers.within a ha).1
      rw [hname heq] at hafter
      exact absurd (hle message hm) (not_le.mpr hafter)

/-- **The tail loses nothing and replays nothing**, while the first poll finds the end of a topic that
has one, and no later poll that was passed an empty cursor finds one behind a message that came in
between. -/
theorem complete_of_resolved (codec : IDCodec)
    (h : Reachable ((tailing codec).guard Resolved) w) : w.Complete codec := by
  have hsound : w.Sound codec := by
    refine h.inv (P := World.Sound codec) ?_ ?_
    · rintro _ ⟨url, log, rfl⟩
      exact sound_new url log
    · rintro u label v hu ⟨⟨hstep, hallows⟩, hresolved⟩
      exact sound_step hu hstep hallows hresolved
  exact hsound.complete

/-! ### A topic that is empty at the first poll -/

/-- The client's own form: numbered fields for ledger, entry, partition, batch index and batch size. -/
def wireCodec : IDCodec where
  serialize id :=
    field 8 id.ledgerID.toUInt64.toNat ++ (field 16 id.entryID.toUInt64.toNat ++
      (field 24 id.partitionIdx.toInt64.toUInt64.toNat ++
        (field 32 id.batchIdx.toInt64.toUInt64.toNat ++ field 48 0)))
  deserialize raw := do
    let (ledgerID, raw) ← readField 8 raw
    let (entryID, raw) ← readField 16 raw
    let (partitionIdx, raw) ← readField 24 raw
    let (batchIdx, _) ← readField 32 raw
    some ⟨(UInt64.ofNat ledgerID).toInt64, (UInt64.ofNat entryID).toInt64,
      (UInt64.ofNat batchIdx).toInt64.toInt32, (UInt64.ofNat partitionIdx).toInt64.toInt32⟩
  roundTrip id := by
    simp only [readField_field, Option.bind_eq_bind, Option.bind_some, UInt64.ofNat_toNat,
      Int64.toInt64_toUInt64, Int32.toInt32_toInt64]
  nonempty id := by simp [field]

def sampleMessage (entryID : Int64) : Message where
  id := ⟨7, entryID, -1, -1⟩
  key := ""
  payload := ""
  properties := ∅
  producerName := "console"
  orderingKey := ""
  eventTime := none
  publishTime := 0
  redeliveryCount := 0

/-- A topic where nothing was published yet. -/
def emptyTopic : TopicLog := ⟨[], .nil⟩

/-- A topic of one message. -/
def oneMessage : TopicLog := emptyTopic.publish (sampleMessage 0) (by simp [emptyTopic])

theorem step_publish (hnew : ∀ a ∈ w.log.entries, a.order < message.order) :
    w.step codec (.publish message) = some { w with log := w.log.publish message hnew } :=
  dif_pos hnew

/-- The cursor after a message. -/
def cursorAt (codec : IDCodec) (entryID : Int64) : TailCursor :=
  ⟨[positionOf codec (-1) (sampleMessage entryID).id]⟩

/-- A tail whose first poll found `before`. -/
def sampleWorld (before log : TopicLog) (cursor : TailCursor) (poll : Poll)
    (batches : List TailBatch) : World :=
  ⟨"orders", log, cursor, poll, batches, some before.entries, some before.entries⟩

/-- A message published between two polls is handed on by the second. -/
theorem published_is_handed_on : ∃ w, Reachable ((tailing wireCodec).guard Resolved) w ∧
    w.returned = [nameOf (sampleMessage 1).id] ∧ w.Complete wireCodec := by
  have hnew : ∀ a ∈ oneMessage.entries, a.order < (sampleMessage 1).order := by
    simp only [oneMessage, emptyTopic, TopicLog.publish, List.nil_append, List.mem_singleton]
    rintro a rfl
    exact WithBot.coe_lt_coe.mpr (by decide)
  have hstart : Reachable ((tailing wireCodec).guard Resolved)
      { sampleWorld oneMessage oneMessage ⟨[]⟩ (.opening 0 (some (sampleMessage 0).id)) [] with
        opened := none } := by
    refine .step (.init ⟨"orders", oneMessage, rfl⟩)
      (i := .begin 0 (some (sampleMessage 0).id)) ⟨⟨rfl, ?_⟩, fun _ => Or.inl rfl⟩
    rintro id ⟨⟩
    rfl
  have hopened : Reachable ((tailing wireCodec).guard Resolved)
      (sampleWorld oneMessage oneMessage ⟨[]⟩ (.reading 0 (some (sampleMessage 0).id)) []) :=
    .step hstart (i := .create) ⟨⟨rfl, trivial⟩, trivial⟩
  have hquiet : Reachable ((tailing wireCodec).guard Resolved)
      (sampleWorld oneMessage oneMessage (cursorAt wireCodec 0) .idle
        [⟨[], cursorAt wireCodec 0, 0⟩]) := by
    refine .step hopened (i := .read []) ⟨⟨rfl, fun _ _ _ => List.nil_prefix⟩, trivial⟩
  have hpublished : Reachable ((tailing wireCodec).guard Resolved)
      (sampleWorld oneMessage (oneMessage.publish (sampleMessage 1) hnew) (cursorAt wireCodec 0) .idle
        [⟨[], cursorAt wireCodec 0, 0⟩]) :=
    .step hquiet (i := .publish (sampleMessage 1)) ⟨⟨step_publish hnew, trivial⟩, trivial⟩
  have hresumed : Reachable ((tailing wireCodec).guard Resolved)
      (sampleWorld oneMessage (oneMessage.publish (sampleMessage 1) hnew) (cursorAt wireCodec 0)
        (.opening 0 (some (sampleMessage 0).id)) [⟨[], cursorAt wireCodec 0, 0⟩]) := by
    refine .step hpublished (i := .begin 0 none) ⟨⟨?_, nofun⟩, nofun⟩
    have hopen : openTail wireCodec (cursorAt wireCodec 0) none =
        .ok (some (sampleMessage 0).id) := by
      simp [openTail, cursorAt, Except.map]
    simp only [World.step, sampleWorld, hopen]
    rfl
  have hreading : Reachable ((tailing wireCodec).guard Resolved)
      (sampleWorld oneMessage (oneMessage.publish (sampleMessage 1) hnew) (cursorAt wireCodec 0)
        (.reading 0 (some (sampleMessage 0).id)) [⟨[], cursorAt wireCodec 0, 0⟩]) :=
    .step hresumed (i := .create) ⟨⟨rfl, trivial⟩, trivial⟩
  have hread : Reachable ((tailing wireCodec).guard Resolved)
      (sampleWorld oneMessage (oneMessage.publish (sampleMessage 1) hnew) (cursorAt wireCodec 1) .idle
        [⟨[], cursorAt wireCodec 0, 0⟩,
          ⟨[messageItem "orders" 1 (sampleMessage 1)], cursorAt wireCodec 1, 0⟩]) := by
    refine .step hreading (i := .read [.message (sampleMessage 1)]) ⟨⟨rfl, ?_⟩, trivial⟩
    rintro limit resumed ⟨⟩
    have hafter : (sampleMessage 0).id.order < (sampleMessage 1).order :=
      WithBot.coe_lt_coe.mpr (by decide)
    have hself : ¬ (sampleMessage 0).id.order < (sampleMessage 0).order := lt_irrefl _
    show [sampleMessage 1] <+: ([sampleMessage 0] ++ [sampleMessage 1]).filter _
    simp [startOrder, hafter, hself]
  refine ⟨_, hread, ?_, complete_of_resolved wireCodec hread⟩
  simp [World.returned, sampleWorld]

/-- The first poll finds the topic empty and hands back an empty cursor; the second resolves the end of
the topic again, behind the message that came in between, and that is never handed on. -/
theorem empty_topic_loses_message :
    ¬ ∀ w, Reachable (tailing wireCodec) w → w.Complete wireCodec := by
  intro hall
  have hstart : Reachable (tailing wireCodec)
      { sampleWorld emptyTopic emptyTopic ⟨[]⟩ (.opening 0 none) [] with opened := none } :=
    .step (.init ⟨"orders", emptyTopic, rfl⟩) (i := .begin 0 none) ⟨rfl, nofun⟩
  have hopened : Reachable (tailing wireCodec)
      (sampleWorld emptyTopic emptyTopic ⟨[]⟩ (.reading 0 none) []) :=
    .step hstart (i := .create) ⟨rfl, trivial⟩
  have hquiet : Reachable (tailing wireCodec)
      (sampleWorld emptyTopic emptyTopic ⟨[]⟩ .idle [⟨[], ⟨[]⟩, 0⟩]) :=
    .step hopened (i := .read [.exhausted]) ⟨rfl, fun _ _ _ => List.nil_prefix⟩
  have hpublished : Reachable (tailing wireCodec)
      (sampleWorld emptyTopic oneMessage ⟨[]⟩ .idle [⟨[], ⟨[]⟩, 0⟩]) :=
    .step hquiet (i := .publish (sampleMessage 0))
      ⟨step_publish (by simp [sampleWorld, emptyTopic]), trivial⟩
  have hagain : Reachable (tailing wireCodec)
      (sampleWorld emptyTopic oneMessage ⟨[]⟩ (.opening 0 (some (sampleMessage 0).id))
        [⟨[], ⟨[]⟩, 0⟩]) := by
    refine .step hpublished (i := .begin 0 (some (sampleMessage 0).id)) ⟨rfl, ?_⟩
    rintro id ⟨⟩
    rfl
  have hreading : Reachable (tailing wireCodec)
      (sampleWorld emptyTopic oneMessage ⟨[]⟩ (.reading 0 (some (sampleMessage 0).id))
        [⟨[], ⟨[]⟩, 0⟩]) :=
    .step hagain (i := .create) ⟨rfl, trivial⟩
  have hread : Reachable (tailing wireCodec)
      (sampleWorld emptyTopic oneMessage (cursorAt wireCodec 0) .idle
        [⟨[], ⟨[]⟩, 0⟩, ⟨[], cursorAt wireCodec 0, 0⟩]) :=
    .step hreading (i := .read [.exhausted]) ⟨rfl, fun _ _ _ => List.nil_prefix⟩
  have hcount := (hall _ hread).once [] (positionOf wireCodec (-1) (sampleMessage 0).id)
    (sampleMessage 0).id rfl rfl (resumeFrom_positionOf _ _ _) (sampleMessage 0)
    (List.mem_singleton_self _) (by simp) le_rfl
  simp [World.returned, sampleWorld] at hcount

end MqStudio.Pulsar
