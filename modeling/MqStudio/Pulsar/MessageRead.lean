import MqStudio.Lib.Errors
import MqStudio.Lib.Strconv
import MqStudio.Lib.Words
import MqStudio.Pulsar.Tail
import MqStudio.Pulsar.Topic

/-!
# Reading Pulsar messages

`pulsar/message_read.go` and `message_id.go`: a browse reads a topic through the client, and a
single message is looked up by its id through the admin API.

* `parseMessageID`, `queryMessages`, `messageByID`: the ids, the browse and the lookup.
* `LookupRight`: the lookup of what a row shows returns the message of the row.
* `lookup_right_iff`: it does exactly for what was looked up before, and for the first message of an
  entry of a topic that is not partitioned, where the listing adds nothing to the message.
-/

namespace MqStudio.Pulsar.Read

open Std (ExtTreeMap)
open Lib.Errors Lib.Maps Lib.Strconv Lib.Text
open Model

/-! ### Ids -/

/-- The text of an id in quotes. -/
def quoted (raw : String) : String := "\"" ++ raw ++ "\""

/-- The error of a number that does not parse. -/
def numError : Error := .external "strconv"

def parseMessageID (raw : String) : Except Error (Int × Int × Int) :=
  let read (ledger entry : List Char) (partition : Option (List Char)) :=
    match parseInt 64 ledger with
    | none => .error (.wrap (quoted raw ++ " has no ledger id") numError)
    | some ledger =>
      match parseInt 64 entry with
      | none => .error (.wrap (quoted raw ++ " has no entry id") numError)
      | some entry =>
        match partition with
        | none => .ok (ledger, entry, -1)
        | some partition =>
          match parseInt 64 partition with
          | none => .error (.wrap (quoted raw ++ " has no partition") numError)
          | some partition => .ok (ledger, entry, partition)
  match (trimSpace raw).toList.splitOn ':' with
  | [ledger, entry] => read ledger entry none
  | [ledger, entry, partition] => read ledger entry (some partition)
  | _ =>
    .error (.new (quoted raw ++
      " is not a pulsar message id; expected ledger:entry or ledger:entry:partition"))

/-! ### Topics and the broker -/

/-- A topic and the messages it holds. -/
inductive Topic where
  | single (log : TopicLog)
  | partitioned (partitions : List TopicLog)

def Topic.Holds (message : Message) : Topic → Prop
  | .single log => message ∈ log.entries
  | .partitioned partitions => ∃ log ∈ partitions, message ∈ log.entries

/-- The messages of one entry: one, or the messages of a batch. -/
def entryOf (log : TopicLog) (ledger entry : Int) : List Message :=
  log.entries.filter fun m => m.id.ledgerID.toInt = ledger ∧ m.id.entryID.toInt = entry

/-- A message as the admin API gives it. -/
structure AdminMessage where
  id : MessageID
  payload : String
  properties : ExtTreeMap String String compare

def adminMessage (message : Message) : AdminMessage :=
  ⟨message.id, message.payload, message.properties⟩

/-- A connection: the topics behind it, what the client's reader does on them, and the errors of the
two clients.  A reader delivers messages of its topic, and the address of a topic is a name. -/
structure Conn where
  scope : String
  topics : String → Option Topic
  getTopicName : String → Option Error
  lookupError : Error
  createReader : String → Option Error
  seekByTime : String → Int → Option Error
  deliveries : String → Int → List Delivery
  readError : Error
  named : ∀ url, topics url ≠ none → getTopicName url = none
  reads : ∀ url startTime, ∀ m ∈ delivered (deliveries url startTime),
    ∃ topic, topics url = some topic ∧ topic.Holds m

variable (c : Conn)

/-- The messages of an entry; there are none in a topic that is partitioned itself. -/
def Conn.getMessagesByID (url : String) (ledger entry : Int) : Except Error (List AdminMessage) :=
  match c.topics url with
  | some (.single log) => .ok ((entryOf log ledger entry).map adminMessage)
  | _ => .error c.lookupError

/-! ### Addresses -/

def FilterNamespace : String := "namespace"
def FilterPersistent : String := "persistent"
def FilterProperty : String := "property"

structure MessageQueryParams where
  topic : String
  messageID : String
  messageKey : String
  startTime : Int
  endTime : Int
  maxResults : Int
  filters : ExtTreeMap String String compare

/-- A filter of the query; one that is not there is blank. -/
def MessageQueryParams.filter (params : MessageQueryParams) (name : String) : String :=
  (params.filters[name]?).getD ""

/-- `strings.Contains` of the mark of a full address. -/
def isURL (topic : String) : Bool := decide ("://".toList <:+: topic.toList)

def Conn.namespaceScope (nameSpace : String) : String :=
  if trimSpace nameSpace ≠ "" then trimSpace nameSpace else c.scope

def Conn.queryTopicURL (params : MessageQueryParams) : Except Error String :=
  if isURL params.topic then .ok params.topic
  else if params.topic = "" then .error (.new "a message query needs a topic")
  else .ok (topicURL ⟨c.namespaceScope (params.filter FilterNamespace), params.topic⟩
    (params.filter FilterPersistent ≠ "false"))

def Conn.resolveTopicURL (topic : String) : Except Error String :=
  if isURL topic then .ok topic
  else if trimSpace topic = "" then .error (.new "a message lookup needs a topic")
  else .ok (topicURL ⟨c.scope, topic⟩ true)

/-! ### The lookup -/

def adminMessageItem (topic : String) (message : AdminMessage) : MessageItem where
  id := 1
  topic := topic
  messageID := messageIDString message.id
  tags := ""
  keys := ""
  queueID := message.id.partitionIdx.toInt
  queueOffset := message.id.entryID.toInt
  storeTimestamp := 0
  status := .normal
  body := message.payload
  properties := message.properties

/-- The address an id is looked up at, and the message that is taken for it. -/
def Conn.lookup (topic messageID : String) : Except Error (String × AdminMessage) :=
  match c.resolveTopicURL topic with
  | .error err => .error err
  | .ok url =>
    match c.getTopicName url with
    | some err => .error err
    | none =>
      match parseMessageID messageID with
      | .error err => .error err
      | .ok (ledger, entry, _) =>
        match c.getMessagesByID url ledger entry with
        | .error err => .error (.wrap ("read " ++ url ++ " at " ++ messageID) err)
        | .ok [] => .error (.new ("no message at " ++ messageID ++ " on " ++ url))
        | .ok (message :: _) => .ok (url, message)

def Conn.messageByID (topic messageID : String) : Except Error MessageItem :=
  (c.lookup topic messageID).map fun found => adminMessageItem found.1 found.2

/-! ### The browse -/

/-- `strings.Cut` at the equals sign. -/
def splitProperty (raw : String) : String × String :=
  match cut '=' raw.toList with
  | some (name, value) => (trimSpace (String.ofList name), trimSpace (String.ofList value))
  | none => (trimSpace raw, "")

/-- `matches`: the filters that are applied after reading. -/
def messageMatches (message : Message) (key property value : String) : Bool :=
  if key ≠ "" ∧ message.key ≠ key then false
  else if property = "" then true
  else
    match message.properties[property]? with
    | none => false
    | some found => value = "" ∨ found = value

def readMaxScanned : Nat := 50000

/-- The loop: the messages that were picked so far, of those that were scanned. -/
def walk (params : MessageQueryParams) (limit : Int) :
    Nat → List Message → List Delivery → Option (List Message)
  | _, picked, [] => some picked
  | scanned, picked, delivery :: rest =>
    if (picked.length : Int) < limit ∧ scanned < readMaxScanned then
      match delivery with
      | .exhausted => some picked
      | .expired => some picked
      | .failed => none
      | .message message =>
        if 0 < params.endTime ∧ params.endTime < message.publishTime then some picked
        else
          let (property, value) := splitProperty (params.filter FilterProperty)
          if messageMatches message params.messageKey property value then
            walk params limit (scanned + 1) (picked ++ [message]) rest
          else walk params limit (scanned + 1) picked rest
    else some picked

/-- `openReader` and the loop: the address that is read, and the messages that are listed. -/
def Conn.browse (params : MessageQueryParams) : Except Error (String × List Message) :=
  match c.queryTopicURL params with
  | .error err => .error err
  | .ok url =>
    match c.createReader url with
    | some err => .error (.wrap ("open a reader on " ++ url) err)
    | none =>
      match if 0 < params.startTime then c.seekByTime url params.startTime else none with
      | some err => .error (.wrap ("seek " ++ url ++ " to " ++ params.startTime.repr) err)
      | none =>
        let limit := if params.maxResults ≤ 0 ∨ readMaxResults < params.maxResults then
          readMaxResults else params.maxResults
        match walk params limit 0 [] (c.deliveries url params.startTime) with
        | none => .error (.wrap ("read " ++ url) c.readError)
        | some picked => .ok (url, picked)

def Conn.queryMessages (params : MessageQueryParams) : Except Error (List MessageItem) :=
  if params.messageID ≠ "" then (c.messageByID params.topic params.messageID).map fun item => [item]
  else (c.browse params).map fun found => found.2.mapIdx fun i m => messageItem found.1 (i + 1) m

/-! ### What a lookup should return -/

/-- The lookup of what a row shows returns the row's message, with the body, the key, the properties
and the partition that the row has. -/
structure LookupRight (id : MessageID) (item found : MessageItem) (source : String × AdminMessage) :
    Prop where
  looked : c.lookup item.topic item.messageID = .ok source
  returned : c.messageByID item.topic item.messageID = .ok found
  same : source.2.id = id
  body : found.body = item.body
  keys : found.keys = item.keys
  properties : found.properties = item.properties
  queueID : found.queueID = item.queueID

/-- The message is in a topic without partitions, and the first of its entry. -/
def Alone (url : String) (m : Message) : Prop :=
  ∃ log, c.topics url = some (.single log) ∧ ∀ a ∈ log.entries,
    a.id.ledgerID = m.id.ledgerID → a.id.entryID = m.id.entryID →
      m.id.batchIdx.toInt ≤ a.id.batchIdx.toInt

/-- What the listing adds to the properties of a message. -/
def added (m : Message) : List (String × String) :=
  [(PropertyBatchIndex, m.id.batchIdx.toInt.repr), (PropertyProducer, m.producerName)] ++
    (if m.orderingKey ≠ "" then [(PropertyOrderingKey, m.orderingKey)] else []) ++
    (m.eventTime.map fun time => (PropertyEventTime, time)).toList ++
    if 0 < m.redeliveryCount then [(PropertyRedeliveryCount, m.redeliveryCount.repr)] else []

/-- The listing adds nothing to the message: it has no key, and what would be added is among its own
properties. -/
structure Bare (m : Message) : Prop where
  key : m.key = ""
  properties : ∀ e ∈ added m, m.properties[e.1]? = some e.2

theorem itemProperties_eq_self_iff (m : Message) :
    itemProperties m = m.properties ↔ ∀ e ∈ added m, m.properties[e.1]? = some e.2 := by
  have hfold : itemProperties m =
      (added m).foldl (fun p e => p.insert e.1 e.2) m.properties := by
    unfold itemProperties added
    by_cases hordering : m.orderingKey ≠ "" <;> by_cases hredelivered : 0 < m.redeliveryCount <;>
      cases m.eventTime <;> simp [hordering, hredelivered]
  have hsub : ((added m).map Prod.fst).Sublist [PropertyBatchIndex, PropertyProducer,
      PropertyOrderingKey, PropertyEventTime, PropertyRedeliveryCount] := by
    unfold added
    by_cases hordering : m.orderingKey ≠ "" <;> by_cases hredelivered : 0 < m.redeliveryCount <;>
      cases m.eventTime <;> simp [hordering, hredelivered]
  have hnodup : ((added m).map Prod.fst).Nodup := hsub.nodup (by decide)
  rw [hfold, foldl_insert_eq_self_iff hnodup]

/-! ### Ids and addresses read back -/

theorem isURL_topicURL (ref : DestinationRef) (persistent : Bool) :
    isURL (topicURL ref persistent) = true := by
  refine decide_eq_true ⟨(schemeOf persistent).toList,
    (ref.nameSpace ++ "/" ++ ref.name).toList, ?_⟩
  rw [topicURL]
  simp only [String.toList_append, List.append_assoc]

theorem isURL_of_queryTopicURL {params : MessageQueryParams} {url : String}
    (h : c.queryTopicURL params = .ok url) : isURL url = true := by
  rw [Conn.queryTopicURL] at h
  split at h
  · rename_i hurl
    rw [← Except.ok.inj h]
    exact hurl
  split at h
  · cases h
  · rw [← Except.ok.inj h]
    exact isURL_topicURL _ _

theorem isURL_of_resolveTopicURL {topic url : String} (h : c.resolveTopicURL topic = .ok url) :
    isURL url = true := by
  rw [Conn.resolveTopicURL] at h
  split at h
  · rename_i hurl
    rw [← Except.ok.inj h]
    exact hurl
  split at h
  · cases h
  · rw [← Except.ok.inj h]
    exact isURL_topicURL _ _

theorem splitOn_colons {a b d : List Char} (ha : ':' ∉ a) (hb : ':' ∉ b) (hd : ':' ∉ d) :
    (a ++ ':' :: (b ++ ':' :: d)).splitOn ':' = [a, b, d] := by
  have hjoin : [':'].intercalate [a, b, d] = a ++ ':' :: (b ++ ':' :: d) := by
    simp [List.intercalate]
  rw [← hjoin]
  refine List.splitOn_intercalate ':' ?_ (List.cons_ne_nil _ _)
  intro w hw
  simp only [List.mem_cons, List.not_mem_nil, or_false] at hw
  rcases hw with rfl | rfl | rfl
  · exact ha
  · exact hb
  · exact hd

/-- **An id that was printed reads back.** -/
theorem parseMessageID_messageIDString (id : MessageID) : parseMessageID (messageIDString id) =
    .ok (id.ledgerID.toInt, id.entryID.toInt, id.partitionIdx.toInt) := by
  have hcolon : ∀ v : Int, ':' ∉ v.repr.toList := fun v =>
    Lib.Encoding.notMem_repr (by decide) (by decide)
  have hlist : (messageIDString id).toList = id.ledgerID.toInt.repr.toList ++
      ':' :: (id.entryID.toInt.repr.toList ++ ':' :: id.partitionIdx.toInt.repr.toList) := by
    simp [messageIDString, String.toList_append]
  have hplain : trimSpace (messageIDString id) = messageIDString id := by
    refine trimSpace_eq_self fun ch hch => ?_
    have hspace : ∀ v : Int, ch ∈ v.repr.toList → isSpace ch = false := by
      intro v hv
      rcases Lib.Encoding.mem_repr hv with hd | rfl
      · exact not_isSpace_of_isDigit hd
      · decide
    rw [hlist, List.mem_append, List.mem_cons, List.mem_append, List.mem_cons] at hch
    rcases hch with hch | rfl | hch | rfl | hch
    · exact hspace _ hch
    · decide
    · exact hspace _ hch
    · decide
    · exact hspace _ hch
  have hpart := Int32.le_toInt id.partitionIdx
  have hpart' := Int32.toInt_lt id.partitionIdx
  have hfits : Fits 64 id.partitionIdx.toInt := ⟨by omega, by omega⟩
  rw [parseMessageID]
  dsimp only
  rw [hplain, hlist, splitOn_colons (hcolon _) (hcolon _) (hcolon _)]
  dsimp only
  rw [parseInt_repr ⟨Int64.le_toInt _, Int64.toInt_lt _⟩]
  dsimp only
  rw [parseInt_repr ⟨Int64.le_toInt _, Int64.toInt_lt _⟩]
  dsimp only
  rw [parseInt_repr hfits]

/-! ### What the lookup takes -/

/-- The lookup at an address takes the first message of the entry. -/
theorem lookup_eq_ok_iff {url : String} (hurl : isURL url = true) (id : MessageID)
    {source : String × AdminMessage} :
    c.lookup url (messageIDString id) = .ok source ↔
      ∃ log m rest, c.topics url = some (.single log) ∧
        entryOf log id.ledgerID.toInt id.entryID.toInt = m :: rest ∧
        source = (url, adminMessage m) := by
  have hresolve : c.resolveTopicURL url = .ok url := if_pos hurl
  rw [Conn.lookup, hresolve]
  dsimp only
  constructor
  · intro h
    split at h
    · cases h
    rw [parseMessageID_messageIDString] at h
    dsimp only [Conn.getMessagesByID] at h
    split at h
    · cases h
    · cases h
    rename_i message rest hmessages
    split at hmessages
    · rename_i log htopic
      obtain ⟨m, ms, hentry, hm, -⟩ := List.map_eq_cons_iff.mp (Except.ok.inj hmessages)
      exact ⟨log, m, ms, htopic, hentry, by rw [← Except.ok.inj h, hm]⟩
    · cases hmessages
  · rintro ⟨log, m, rest, htopic, hentry, rfl⟩
    have hname : c.getTopicName url = none := c.named url (by rw [htopic]; exact nofun)
    rw [hname, parseMessageID_messageIDString]
    dsimp only [Conn.getMessagesByID]
    rw [htopic]
    dsimp only
    rw [hentry]
    rfl


theorem order_lt_iff {a b : Message} (hledger : a.id.ledgerID = b.id.ledgerID)
    (hentry : a.id.entryID = b.id.entryID) :
    a.order < b.order ↔ a.id.batchIdx.toInt < b.id.batchIdx.toInt := by
  rw [Message.order, Message.order, MessageID.order, MessageID.order, WithBot.coe_lt_coe,
    hledger, hentry, Prod.Lex.toLex_lt_toLex, Prod.Lex.toLex_lt_toLex]
  simp

theorem mem_entryOf {log : TopicLog} {m a : Message} :
    a ∈ entryOf log m.id.ledgerID.toInt m.id.entryID.toInt ↔
      a ∈ log.entries ∧ a.id.ledgerID = m.id.ledgerID ∧ a.id.entryID = m.id.entryID := by
  rw [entryOf, List.mem_filter]
  simp only [decide_eq_true_eq, Int64.toInt_inj]

/-- The first message of an entry is the one that has the lowest place in the batch. -/
theorem head_entryOf_iff {log : TopicLog} {m : Message} (hm : m ∈ log.entries) :
    (∃ f rest, entryOf log m.id.ledgerID.toInt m.id.entryID.toInt = f :: rest ∧ f.id = m.id) ↔
      ∀ a ∈ log.entries, a.id.ledgerID = m.id.ledgerID → a.id.entryID = m.id.entryID →
        m.id.batchIdx.toInt ≤ a.id.batchIdx.toInt := by
  have hsorted : (entryOf log m.id.ledgerID.toInt m.id.entryID.toInt).Pairwise
      fun a b => a.order < b.order := log.sorted.sublist List.filter_sublist
  have hmem := mem_entryOf.mpr ⟨hm, rfl, rfl⟩
  constructor
  · rintro ⟨f, rest, hentry, hid⟩ a ha hledger hentryID
    have hin := mem_entryOf.mpr ⟨ha, hledger, hentryID⟩
    rw [hentry] at hsorted hin
    rcases List.mem_cons.mp hin with rfl | hin
    · rw [hid]
    · have hlt := (List.pairwise_cons.mp hsorted).1 a hin
      rw [order_lt_iff (by rw [hid, hledger]) (by rw [hid, hentryID]), hid] at hlt
      exact hlt.le
  · intro hfirst
    obtain ⟨f, rest, hentry⟩ := List.exists_cons_of_ne_nil (List.ne_nil_of_mem hmem)
    refine ⟨f, rest, hentry, ?_⟩
    rw [hentry] at hsorted hmem
    rcases List.mem_cons.mp hmem with rfl | hin
    · rfl
    · obtain ⟨hf, hledger, hentryID⟩ := mem_entryOf.mp (hentry ▸ List.mem_cons_self)
      have hlt := (List.pairwise_cons.mp hsorted).1 m hin
      rw [order_lt_iff hledger hentryID] at hlt
      exact absurd (hfirst f hf hledger hentryID) (not_le.mpr hlt)

/-- Two messages of a topic with one id are one message. -/
theorem eq_of_id_eq {log : TopicLog} {a b : Message} (ha : a ∈ log.entries)
    (hb : b ∈ log.entries) (h : a.id = b.id) : a = b := by
  have hnodup : (log.entries.map Message.id).Nodup := by
    refine List.pairwise_map.mpr (log.sorted.imp fun {x y} hlt he => ?_)
    rw [Message.order, he] at hlt
    exact lt_irrefl _ hlt
  exact List.inj_on_of_nodup_map hnodup ha hb h

/-- **A row of a browse is found** exactly if its message is alone and bare. -/
theorem finds_iff {url : String} (hurl : isURL url = true) {m : Message}
    (hm : ∃ topic, c.topics url = some topic ∧ topic.Holds m) (n : Int) :
    (∃ found source, LookupRight c m.id (messageItem url n m) found source) ↔
      Alone c url m ∧ Bare m := by
  constructor
  · rintro ⟨found, source, h⟩
    obtain ⟨log, f, rest, htopic, hentry, rfl⟩ := (lookup_eq_ok_iff c hurl m.id).mp h.looked
    have hmem : m ∈ log.entries := by
      obtain ⟨topic, htopic', hholds⟩ := hm
      obtain rfl := Option.some.inj (htopic.symm.trans htopic')
      exact hholds
    have hf : f ∈ log.entries := (mem_entryOf.mp (hentry ▸ List.mem_cons_self)).1
    obtain rfl := eq_of_id_eq hf hmem h.same
    have hreturned := h.returned
    rw [Conn.messageByID, h.looked] at hreturned
    obtain rfl := Except.ok.inj hreturned
    exact ⟨⟨log, htopic, (head_entryOf_iff hmem).mp ⟨f, rest, hentry, rfl⟩⟩,
      ⟨h.keys.symm, (itemProperties_eq_self_iff _).mp h.properties.symm⟩⟩
  · rintro ⟨⟨log, htopic, hfirst⟩, hbare⟩
    have hmem : m ∈ log.entries := by
      obtain ⟨topic, htopic', hholds⟩ := hm
      obtain rfl := Option.some.inj (htopic.symm.trans htopic')
      exact hholds
    obtain ⟨f, rest, hentry, hid⟩ := (head_entryOf_iff hmem).mpr hfirst
    have hf : f ∈ log.entries := (mem_entryOf.mp (hentry ▸ List.mem_cons_self)).1
    obtain rfl := eq_of_id_eq hf hmem hid
    have hlooked : c.lookup url (messageIDString f.id) = .ok (url, adminMessage f) :=
      (lookup_eq_ok_iff c hurl f.id).mpr ⟨log, f, rest, htopic, hentry, rfl⟩
    refine ⟨adminMessageItem url (adminMessage f), (url, adminMessage f), hlooked, ?_, rfl, rfl,
      hbare.key.symm, ((itemProperties_eq_self_iff _).mpr hbare.properties).symm, rfl⟩
    show (c.lookup url (messageIDString f.id)).map _ = _
    rw [hlooked]
    rfl

/-! ### What is listed -/

/-- The loop lists messages that were delivered. -/
theorem mem_of_walk {params : MessageQueryParams} {limit : Int} {ds : List Delivery} :
    ∀ {scanned : Nat} {picked out : List Message}, walk params limit scanned picked ds = some out →
      ∀ m ∈ out, m ∈ picked ∨ m ∈ delivered ds := by
  induction ds with
  | nil =>
    intro scanned picked out h m hm
    rw [walk.eq_def] at h
    rw [Option.some.inj h]
    exact .inl hm
  | cons delivery rest ih =>
    intro scanned picked out h m hm
    have hnow : some picked = some out → m ∈ picked ∨ m ∈ delivered (delivery :: rest) := by
      intro he
      rw [Option.some.inj he]
      exact .inl hm
    rw [walk.eq_def] at h
    dsimp only at h
    split at h
    · cases delivery with
      | exhausted => exact hnow h
      | expired => exact hnow h
      | failed => cases h
      | message message =>
        dsimp only at h
        have hcons : delivered (.message message :: rest) = message :: delivered rest := rfl
        rw [hcons]
        split at h
        · exact hnow h
        split at h
        · rcases ih h m hm with hp | hd
          · rcases List.mem_append.mp hp with hp | hp
            · exact .inl hp
            · rw [List.mem_singleton.mp hp]
              exact .inr List.mem_cons_self
          · exact .inr (List.mem_cons_of_mem _ hd)
        · exact (ih h m hm).imp_right (List.mem_cons_of_mem _)
    · exact hnow h

/-- What a browse lists is in the topic it reads. -/
theorem holds_of_browse {params : MessageQueryParams} {url : String} {picked : List Message}
    (h : c.browse params = .ok (url, picked)) : isURL url = true ∧
      ∀ m ∈ picked, ∃ topic, c.topics url = some topic ∧ topic.Holds m := by
  rw [Conn.browse] at h
  split at h
  · cases h
  rename_i url' hquery
  split at h
  · cases h
  split at h
  · cases h
  dsimp only at h
  split at h
  · cases h
  rename_i picked' hwalk
  obtain ⟨rfl, rfl⟩ := Prod.mk.inj (Except.ok.inj h)
  refine ⟨isURL_of_queryTopicURL c hquery, fun m hm => ?_⟩
  rcases mem_of_walk hwalk m hm with hnone | hd
  · cases hnone
  · exact c.reads _ _ m hd

/-- What was looked up is found again. -/
theorem finds_lookedUp {topic messageID : String} {item : MessageItem}
    (h : c.messageByID topic messageID = .ok item) :
    ∃ id found source, LookupRight c id item found source := by
  rw [Conn.messageByID] at h
  cases hlooked : c.lookup topic messageID with
  | error err =>
    rw [hlooked] at h
    cases h
  | ok source =>
    rw [hlooked] at h
    obtain rfl := Except.ok.inj h
    have hagain : c.lookup source.1 (messageIDString source.2.id) = .ok source := by
      rw [Conn.lookup] at hlooked
      split at hlooked
      · cases hlooked
      rename_i url hresolve
      split at hlooked
      · cases hlooked
      split at hlooked
      · cases hlooked
      split at hlooked
      · cases hlooked
      · cases hlooked
      rename_i ledger entry _ _ _ message rest hmessages
      obtain rfl := Except.ok.inj hlooked
      rw [Conn.getMessagesByID] at hmessages
      split at hmessages
      · rename_i log htopic
        obtain ⟨f, ms, hentry, rfl, -⟩ := List.map_eq_cons_iff.mp (Except.ok.inj hmessages)
        have hf : f ∈ entryOf log ledger entry := hentry ▸ List.mem_cons_self
        rw [entryOf, List.mem_filter, decide_eq_true_eq] at hf
        obtain ⟨-, hledger, hentryID⟩ := hf
        refine (lookup_eq_ok_iff c (isURL_of_resolveTopicURL c hresolve) f.id).mpr
          ⟨log, f, ms, htopic, ?_, rfl⟩
        rw [hledger, hentryID]
        exact hentry
      · cases hmessages
    refine ⟨source.2.id, adminMessageItem source.1 source.2, source, hagain, ?_, rfl, rfl, rfl, rfl,
      rfl⟩
    show (c.lookup source.1 (messageIDString source.2.id)).map _ = _
    rw [hagain]
    rfl

/-- **What a query lists is found again** exactly where the query was a lookup itself, or the
message is alone and bare. -/
theorem lookup_right_iff (params : MessageQueryParams) :
    (params.messageID ≠ "" → ∀ items, c.queryMessages params = .ok items → ∀ item ∈ items,
      ∃ id found source, LookupRight c id item found source) ∧
    (params.messageID = "" → ∀ url picked, c.browse params = .ok (url, picked) →
      c.queryMessages params = .ok (picked.mapIdx fun i m => messageItem url (i + 1) m) ∧
      ∀ m ∈ picked, ∀ n, (∃ found source, LookupRight c m.id (messageItem url n m) found source) ↔
        Alone c url m ∧ Bare m) := by
  constructor
  · intro hid items hitems item hmem
    rw [Conn.queryMessages, if_pos hid] at hitems
    cases hfound : c.messageByID params.topic params.messageID with
    | error err =>
      rw [hfound] at hitems
      cases hitems
    | ok found =>
      rw [hfound] at hitems
      obtain rfl := Except.ok.inj hitems
      obtain rfl := List.mem_singleton.mp hmem
      exact finds_lookedUp c hfound
  · intro hid url picked hbrowse
    obtain ⟨hurl, hholds⟩ := holds_of_browse c hbrowse
    refine ⟨?_, fun m hm n => finds_iff c hurl (hholds m hm) n⟩
    rw [Conn.queryMessages, if_neg (not_not.mpr hid), hbrowse]
    rfl


/-! ### A batch of two -/

def ordersURL : String := "persistent://public/default/orders"

/-- One of the messages of a batch. -/
def batched (batchIdx : Int32) (payload : String) : Message where
  id := ⟨7, 0, batchIdx, -1⟩
  key := ""
  payload := payload
  properties := ∅
  producerName := "console"
  orderingKey := ""
  eventTime := none
  publishTime := 0
  redeliveryCount := 0

/-- A topic whose only entry is a batch of two messages. -/
def batchLog : TopicLog where
  entries := [batched 0 "first", batched 1 "second"]
  sorted := by
    refine List.pairwise_cons.mpr ⟨fun a ha => ?_, List.pairwise_singleton _ _⟩
    rw [List.mem_singleton.mp ha]
    exact (order_lt_iff (a := batched 0 "first") (b := batched 1 "second") rfl rfl).mpr (by decide)

def batchConn : Conn where
  scope := "public/default"
  topics url := if url = ordersURL then some (.single batchLog) else none
  getTopicName _ := none
  lookupError := .external "404"
  createReader _ := none
  seekByTime _ _ := none
  deliveries url _ := if url = ordersURL then batchLog.entries.map .message else []
  readError := .external "closed"
  named _ _ := rfl
  reads url startTime m hm := by
    split at hm
    · rename_i hurl
      exact ⟨_, if_pos hurl, hm⟩
    · cases hm

/-- Both messages of a batch are listed, and the second is looked up as the first. -/
theorem second_found_as_first : ∃ items second found,
    batchConn.queryMessages ⟨ordersURL, "", "", 0, 0, 0, ∅⟩ = .ok items ∧ items[1]? = some second ∧
      batchConn.messageByID second.topic second.messageID = .ok found ∧
      second.body = "second" ∧ found.body = "first" := by
  have hurl : isURL ordersURL = true := by decide
  have hwalk : walk ⟨ordersURL, "", "", 0, 0, 0, ∅⟩ 500 0 []
      (batchLog.entries.map .message) = some batchLog.entries := by rfl
  have hbrowse : batchConn.browse ⟨ordersURL, "", "", 0, 0, 0, ∅⟩ =
      .ok (ordersURL, batchLog.entries) := by
    have hquery : batchConn.queryTopicURL ⟨ordersURL, "", "", 0, 0, 0, ∅⟩ = .ok ordersURL :=
      if_pos hurl
    rw [Conn.browse, hquery]
    show (match walk ⟨ordersURL, "", "", 0, 0, 0, ∅⟩ 500 0 [] (batchLog.entries.map .message) with
      | none => Except.error (Error.wrap ("read " ++ ordersURL) batchConn.readError)
      | some picked => .ok (ordersURL, picked)) = _
    rw [hwalk]
  have htopic : batchConn.topics ordersURL = some (.single batchLog) := by
    rw [batchConn]
    dsimp only
    rw [if_pos rfl]
  have hlooked : batchConn.lookup ordersURL (messageIDString (batched 1 "second").id) =
      .ok (ordersURL, adminMessage (batched 0 "first")) :=
    (lookup_eq_ok_iff batchConn hurl _).mpr
      ⟨batchLog, batched 0 "first", [batched 1 "second"], htopic, rfl, rfl⟩
  refine ⟨batchLog.entries.mapIdx fun i m => messageItem ordersURL (i + 1) m,
    messageItem ordersURL 2 (batched 1 "second"),
    adminMessageItem ordersURL (adminMessage (batched 0 "first")), ?_, rfl, ?_, rfl, rfl⟩
  · rw [Conn.queryMessages, if_neg (not_not.mpr rfl), hbrowse]
    rfl
  · show (batchConn.lookup ordersURL (messageIDString (batched 1 "second").id)).map _ = _
    rw [hlooked]
    rfl


end MqStudio.Pulsar.Read
