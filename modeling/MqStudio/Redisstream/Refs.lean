import MqStudio.Lib.Json.Syntax
import MqStudio.Lib.Maps
import MqStudio.Lib.Program
import MqStudio.Lib.Strconv
import MqStudio.Lib.Text
import MqStudio.Model.Tail

/-!
# Redis streams and groups by their rows

The pages of `redisstream/destination.go` and `redisstream/subscription.go`, and what the
operations of `trim.go`, `publish.go`, `message.go`, `position.go` and `pending.go` send for
the ref of a row.

* `Command`, `Call`: what the server is sent, and an operation as a program that sends it.
* `Destination.Op.call_exact`, `Subscription.Op.call_exact`: every command is for the trimmed
  names.
* `Keyspace.page_exact_iff`: every operation acts on its row exactly if trimming changes no name,
  or leaves none.
-/

namespace MqStudio.Redisstream

open Std (ExtTreeMap)
open Lib Lib.Maps Lib.Strconv Lib.Text
open Model

/-! ### Commands and replies -/

inductive Command where
  | xtrimMaxLen (stream : String) (approx : Bool) (maxLen : Int)
  | xtrimMinID (stream : String) (approx : Bool) (id : String)
  | xdel (stream : String) (ids : List String)
  /-- With NOMKSTREAM. -/
  | xadd (stream id : String) (values : List (String × String))
  | del (key : String)
  | xrevrange (stream last first : String) (count : Int)
  | xrange (stream first last : String) (count : Int)
  | xinfoGroups (stream : String)
  | xgroupDestroy (stream group : String)
  | xgroupSetID (stream group position : String)
  | xack (stream group : String) (ids : List String)
  | xclaimJustID (stream group consumer : String) (minIdleMs : Int) (ids : List String)
  | xautoclaimJustID (stream group consumer : String) (minIdleMs : Int) (start : String)
      (count : Int)
deriving DecidableEq

def Command.key : Command → String
  | .xtrimMaxLen stream _ _ | .xtrimMinID stream _ _ | .xdel stream _ | .xadd stream _ _
  | .del stream | .xrevrange stream _ _ _ | .xrange stream _ _ _ | .xinfoGroups stream
  | .xgroupDestroy stream _ | .xgroupSetID stream _ _ | .xack stream _ _
  | .xclaimJustID stream _ _ _ _ | .xautoclaimJustID stream _ _ _ _ _ => stream

/-- The consumer group a command is for. -/
def Command.group : Command → Option String
  | .xgroupDestroy _ group | .xgroupSetID _ group _ | .xack _ group _
  | .xclaimJustID _ group _ _ _ | .xautoclaimJustID _ group _ _ _ _ => some group
  | _ => none

structure Entry where
  id : String
  values : ExtTreeMap String String compare

structure XInfoGroup where
  name : String
  consumers : Int
  pending : Int
  lastDeliveredID : String
  entriesRead : Int
  /-- Less than 0 where the server reports none. -/
  lag : Int

/-- What the client library makes of a reply. -/
inductive Reply where
  | ok
  | count (n : Int)
  | id (id : String)
  | ids (ids : List String)
  | entries (entries : List Entry)
  | groups (groups : List XInfoGroup)
  | autoClaim (next : String) (claimed deleted : List String)

inductive OpError where
  | noStream
  | negativeLength
  | noMinID
  | unknownStrategy (strategy : String)
  | noIDs
  | noFields
  | tooMany (count : Int)
  | notAnEntryID (id : String)
  | idUsedOnce
  | noStreamOrID
  | noEntry (id stream : String)
  | noGroupStream
  | noGroupName
  | noGroup (group stream : String)
  | noPosition
  | notAPosition (position : String)
  | noConsumer
  | notThere (stream : String)
  /-- The server's error, with the ids that were written before it. -/
  | server (stream err : String) (ids : List String)
  | unexpected
  | scan (err : String)
  | describe (err : String)
deriving DecidableEq

/-- An operation, with the commands it sends. -/
abbrev Call (α : Type) := Program Command (Except String Reply) (Except OpError α)

/-- An operation that sends one command. -/
def once {α : Type} (command : Command) (read : Reply → Except OpError α) : Call α :=
  .ask command fun
    | .error err => .done (.error (.server command.key err []))
    | .ok reply => .done (read reply)

def readCount : Reply → Except OpError Int
  | .count n => .ok n
  | _ => .error .unexpected

def readIDs : Reply → Except OpError (List String)
  | .ids ids => .ok ids
  | _ => .error .unexpected

/-! ### Rows -/

structure DestinationRef where
  nameSpace : String
  name : String
deriving DecidableEq

structure SubscriptionRef where
  nameSpace : String
  name : String
deriving DecidableEq

structure Destination where
  id : Nat
  ref : DestinationRef
  partitions : Int
  subscribers : Int
  depth : Int
  rateIn : Int
  rateOut : Int
  attributes : ExtTreeMap String String compare

inductive SubscriptionStatus where
  | online
  | warning
  | offline
deriving DecidableEq

structure Subscription where
  id : Nat
  ref : SubscriptionRef
  status : SubscriptionStatus
  members : Int
  destinations : Int
  backlog : Int
  rateOut : Int
  attributes : ExtTreeMap String String compare

structure XInfoStream where
  length : Int
  groups : Int
  lastGeneratedID : String
  entriesAdded : Int
  radixTreeKeys : Int
  radixTreeNodes : Int
  firstEntryID : String
  lastEntryID : String
  maxDeletedEntryID : String

/-- A key of the attributes, where it has something to say. -/
def withText (attributes : ExtTreeMap String String compare) (key value : String) (shown : Bool) :
    ExtTreeMap String String compare :=
  if shown then attributes.insert key value else attributes

def destinationOf (key : String) (info : XInfoStream) : Destination where
  id := 0
  ref := ⟨"", key⟩
  depth := info.length
  partitions := UnknownMetric
  subscribers := info.groups
  rateIn := UnknownMetric
  rateOut := UnknownMetric
  attributes :=
    let base := (((∅ : ExtTreeMap String String compare).insert "lastGeneratedId"
      info.lastGeneratedID).insert "entriesAdded" (toString info.entriesAdded)).insert
        "radixTreeKeys" (toString info.radixTreeKeys)
    let base := base.insert "radixTreeNodes" (toString info.radixTreeNodes)
    let base := withText base "firstEntryId" info.firstEntryID (info.firstEntryID ≠ "")
    let base := withText base "lastEntryId" info.lastEntryID (info.lastEntryID ≠ "")
    withText base "maxDeletedEntryId" info.maxDeletedEntryID
      (info.maxDeletedEntryID ≠ "" ∧ info.maxDeletedEntryID ≠ "0-0")

def groupStatus (group : XInfoGroup) : SubscriptionStatus :=
  if 0 < group.consumers then .online else if 0 < group.pending then .warning else .offline

def subscriptionOf (stream : String) (group : XInfoGroup) : Subscription where
  id := 0
  ref := ⟨stream, group.name⟩
  status := groupStatus group
  members := group.consumers
  destinations := 1
  backlog := if group.lag < 0 then UnknownMetric else group.lag
  rateOut := UnknownMetric
  attributes :=
    let base := (((∅ : ExtTreeMap String String compare).insert "stream" stream).insert "pending"
      (toString group.pending)).insert "lastDeliveredId" group.lastDeliveredID
    withText base "entriesRead" (toString group.entriesRead) (0 ≤ group.lag)

/-! ### The two pages -/

/-- The most streams one listing returns. -/
def maxStreams : Nat := 2000

structure ReplyError where
  noSuchKey : Bool
  text : String

/-- What the servers answer to the listings: the pages of each master's SCAN, in the order the
masters come, and what they say of a key. -/
structure Keyspace where
  cluster : Bool
  nodes : List (List (Except String (List String)))
  info : String → Except ReplyError XInfoStream
  memory : String → Except ReplyError Int
  groups : String → Option (List XInfoGroup)

/-- The loop over the pages of one server. -/
def scanNode (keys : List String) : List (Except String (List String)) → Except String (List String)
  | [] => .ok (keys.take maxStreams)
  | .error err :: _ => .error err
  | .ok found :: pages =>
    if maxStreams ≤ (keys ++ found).length then .ok ((keys ++ found).take maxStreams)
    else scanNode (keys ++ found) pages

namespace Keyspace

variable (ks : Keyspace)

def scanStreams : Except OpError (List String) :=
  let nodes := if ks.cluster then ks.nodes else ks.nodes.take 1
  match nodes.mapM (scanNode []) with
  | .error err => .error (.scan err)
  | .ok found => .ok (found.flatten.take maxStreams)

/-- The first command of the describing pipeline that failed. -/
def firstFailure (keys : List String) : Option ReplyError :=
  (keys.flatMap fun key =>
    (match ks.info key with | .error err => [err] | .ok _ => []) ++
      match ks.memory key with | .error err => [err] | .ok _ => []).head?

/-- Whether nothing of the listing came back. -/
def describeFails (keys : List String) : Option String :=
  match ks.firstFailure keys with
  | none => none
  | some err =>
    if !err.noSuchKey && keys.all fun key => !(ks.info key).toBool then some err.text else none

def rowOf (id : Nat) (key : String) : Option Destination :=
  match ks.info key with
  | .error _ => none
  | .ok info =>
    let row := { destinationOf key info with id := id }
    match ks.memory key with
    | .error _ => some row
    | .ok bytes =>
      some { row with attributes := row.attributes.insert "memoryBytes" (toString bytes) }

def listDestinations : Except OpError (List Destination) :=
  match ks.scanStreams with
  | .error err => .error err
  | .ok keys =>
    let keys := keys.mergeSort
    match ks.describeFails keys with
    | some err => .error (.describe err)
    | none => .ok ((keys.mapIdx fun i key => ks.rowOf (i + 1) key).filterMap id)

def before (left right : Subscription) : Bool :=
  if left.ref.nameSpace ≠ right.ref.nameSpace then left.ref.nameSpace < right.ref.nameSpace
  else left.ref.name ≤ right.ref.name

def listSubscriptions : Except OpError (List Subscription) :=
  match ks.scanStreams with
  | .error err => .error err
  | .ok keys =>
    let rows := keys.mergeSort.flatMap fun key =>
      ((ks.groups key).getD []).map (subscriptionOf key)
    .ok ((rows.mergeSort before).mapIdx fun i row => { row with id := i + 1 })

end Keyspace

/-! ### Operations on a stream -/

/-- Blank ids are left out. -/
def trimmedIDs (ids : List String) : List String := (ids.map trimSpace).filter (· ≠ "")

/-- What Redis takes for an entry id: milliseconds, or milliseconds and a sequence. -/
def isEntryID (id : String) : Bool :=
  let isNumber (cs : List Char) : Bool := !cs.isEmpty && cs.all Char.isDigit
  match cut '-' id.toList with
  | none => isNumber id.toList
  | some (milliseconds, sequence) => isNumber milliseconds && isNumber sequence

structure TrimRequest where
  ref : DestinationRef
  strategy : String
  maxLen : Int
  minID : String
  approx : Bool

def trim (request : TrimRequest) : Call Int :=
  let name := trimSpace request.ref.name
  if name = "" then .done (.error .noStream)
  else if request.strategy = "maxlen" then
    if request.maxLen < 0 then .done (.error .negativeLength)
    else once (.xtrimMaxLen name request.approx request.maxLen) readCount
  else if request.strategy = "minid" then
    let id := trimSpace request.minID
    if id = "" then .done (.error .noMinID)
    else once (.xtrimMinID name request.approx id) readCount
  else .done (.error (.unknownStrategy request.strategy))

def deleteEntries (ref : DestinationRef) (ids : List String) : Call Int :=
  let name := trimSpace ref.name
  if name = "" then .done (.error .noStream)
  else
    let wanted := trimmedIDs ids
    if wanted = [] then .done (.error .noIDs) else once (.xdel name wanted) readCount

/-- The one operation that sends the name as it is. -/
def removeDestination (ref : DestinationRef) : Call Unit :=
  once (.del ref.name) fun
    | .count 0 => .error (.notThere ref.name)
    | .count _ => .ok ()
    | _ => .error .unexpected

structure StreamField where
  name : String
  value : String

structure StreamAddRequest where
  ref : DestinationRef
  fields : List StreamField
  id : String
  count : Int

def maxAddCount : Int := 1000

/-- The copies that are still to be written, after those with these ids. -/
def addCopies (command : Command) : Nat → List String → Call (List String)
  | 0, ids => .done (.ok ids)
  | n + 1, ids => .ask command fun
    | .error err => .done (.error (.server command.key err ids))
    | .ok (.id assigned) => addCopies command n (ids ++ [assigned])
    | .ok _ => .done (.error .unexpected)

def addEntry (request : StreamAddRequest) : Call (List String) :=
  let stream := trimSpace request.ref.name
  if stream = "" then .done (.error .noStream)
  else
    let values := request.fields.filterMap fun field =>
      let name := trimSpace field.name
      if name = "" then none else some (name, field.value)
    if values = [] then .done (.error .noFields)
    else
      let count := if request.count ≤ 0 then 1 else request.count
      if maxAddCount < count then .done (.error (.tooMany count))
      else
        let id := trimSpace request.id
        if id = "" then addCopies (.xadd stream "*" values) count.toNat []
        else if !isEntryID id then .done (.error (.notAnEntryID id))
        else if 1 < count then .done (.error .idUsedOnce)
        else addCopies (.xadd stream id values) count.toNat []

/-- The JSON object of an entry's fields, by name. -/
def entryBody (values : ExtTreeMap String String compare) : String :=
  let quote (s : String) : List Char := '"' :: Lib.Json.quoteRest s.toList
  let members := values.toList.map fun field => quote field.1 ++ [':'] ++ quote field.2
  String.ofList ('{' :: [','].intercalate members ++ ['}'])

def millisecondsOf (id : String) : Int :=
  let head := match cut '-' id.toList with
    | none => id.toList
    | some (head, _) => head
  (parseInt 64 head).getD 0

def messageOf (stream : String) (entry : Entry) : MessageItem where
  id := 0
  topic := stream
  messageID := entry.id
  tags := ""
  keys := ""
  queueID := 0
  queueOffset := 0
  storeTimestamp := millisecondsOf entry.id
  status := .normal
  body := entryBody entry.values
  properties := entry.values

def messageByID (topic messageID : String) : Call MessageItem :=
  let stream := trimSpace topic
  let id := trimSpace messageID
  if stream = "" ∨ id = "" then .done (.error .noStreamOrID)
  else if !isEntryID id then .done (.error (.notAnEntryID id))
  else once (.xrange stream id id 1) fun
    | .entries [] => .error (.noEntry id stream)
    | .entries (entry :: _) => .ok { messageOf stream entry with id := 1 }
    | _ => .error .unexpected

structure MessageQueryParams where
  topic : String
  messageID : String
  startTime : Int
  endTime : Int
  maxResults : Int
  filters : ExtTreeMap String String compare

def defaultMaxResults : Int := 200
def scanMultiplier : Int := 10

/-- The ids a time window begins and ends with. -/
def rangeOf (params : MessageQueryParams) : String × String :=
  (if 0 < params.startTime then toString params.startTime ++ "-0" else "-",
    if 0 < params.endTime then toString params.endTime ++ "-18446744073709551615" else "+")

/-- The filters that Redis does not have.  `lower` is the lowering of a text. -/
def entryMatches (lower : String → String) (entry : Entry) (field contains : String) : Bool :=
  (field = "" ∨ field ∈ entry.values) &&
    (contains = "" || entry.values.toList.any fun value =>
      decide ((lower contains).toList <:+: (lower value.1).toList) ||
        decide ((lower contains).toList <:+: (lower value.2).toList))

def queryMessages (lower : String → String) (params : MessageQueryParams) :
    Call (List MessageItem) :=
  let stream := trimSpace params.topic
  if stream = "" then .done (.error .noStream)
  else
    let id := trimSpace params.messageID
    if id ≠ "" then (messageByID stream id).map fun result => result.map fun item => [item]
    else
      let limit := if params.maxResults ≤ 0 then defaultMaxResults else params.maxResults
      let field := trimSpace ((params.filters["field"]?).getD "")
      let contains := trimSpace ((params.filters["contains"]?).getD "")
      let read := if field ≠ "" ∨ contains ≠ "" then limit * scanMultiplier else limit
      once (.xrevrange stream (rangeOf params).2 (rangeOf params).1 read) fun
        | .entries entries =>
          .ok ((((entries.filter fun entry => entryMatches lower entry field contains).take
            limit.toNat).map (messageOf stream)).mapIdx fun i item => { item with id := i + 1 })
        | _ => .error .unexpected

/-! ### Operations on a group -/

/-- The names of the stream and the group, or what is missing. -/
def groupRef (ref : SubscriptionRef) : Except OpError (String × String) :=
  let stream := trimSpace ref.nameSpace
  let group := trimSpace ref.name
  if stream = "" then .error .noGroupStream
  else if group = "" then .error .noGroupName
  else .ok (stream, group)

/-- An operation on the stream and group of a ref. -/
def withGroup {α : Type} (ref : SubscriptionRef) (call : String → String → Call α) : Call α :=
  match groupRef ref with
  | .error err => .done (.error err)
  | .ok (stream, group) => call stream group

def subscriptionDetail (ref : SubscriptionRef) : Call Subscription :=
  withGroup ref fun stream group => once (.xinfoGroups stream) fun
    | .groups groups =>
      match groups.find? fun candidate => candidate.name = group with
      | some candidate => .ok (subscriptionOf stream candidate)
      | none => .error (.noGroup group stream)
    | _ => .error .unexpected

def removeSubscription (ref : SubscriptionRef) : Call Unit :=
  withGroup ref fun stream group => once (.xgroupDestroy stream group) fun
    | .count 0 => .error (.noGroup group stream)
    | .count _ => .ok ()
    | _ => .error .unexpected

structure PositionRequest where
  ref : SubscriptionRef
  position : String

def setSubscriptionPosition (request : PositionRequest) : Call Unit :=
  withGroup request.ref fun stream group =>
    let position := trimSpace request.position
    if position = "" then .done (.error .noPosition)
    else if position ≠ "0" ∧ position ≠ "$" ∧ !isEntryID position then
      .done (.error (.notAPosition position))
    else once (.xgroupSetID stream group position) fun _ => .ok ()

def ackEntries (ref : SubscriptionRef) (ids : List String) : Call Int :=
  withGroup ref fun stream group =>
    let wanted := trimmedIDs ids
    if wanted = [] then .done (.error .noIDs) else once (.xack stream group wanted) readCount

structure ClaimRequest where
  ref : SubscriptionRef
  consumer : String
  ids : List String
  minIdleMs : Int

def claimEntries (request : ClaimRequest) : Call (List String) :=
  withGroup request.ref fun stream group =>
    let consumer := trimSpace request.consumer
    if consumer = "" then .done (.error .noConsumer)
    else
      let wanted := trimmedIDs request.ids
      if wanted = [] then .done (.error .noIDs)
      else once (.xclaimJustID stream group consumer request.minIdleMs wanted) readIDs

structure AutoClaimRequest where
  ref : SubscriptionRef
  consumer : String
  minIdleMs : Int
  start : String
  count : Int

structure ClaimResult where
  claimed : List String
  deleted : List String
  nextStart : String

def defaultPendingCount : Int := 200

def autoClaim (request : AutoClaimRequest) : Call ClaimResult :=
  withGroup request.ref fun stream group =>
    let consumer := trimSpace request.consumer
    if consumer = "" then .done (.error .noConsumer)
    else
      let start := if trimSpace request.start = "" then "0-0" else trimSpace request.start
      let count := if request.count ≤ 0 then defaultPendingCount else request.count
      once (.xautoclaimJustID stream group consumer request.minIdleMs start count) fun
        | .autoClaim next claimed deleted => .ok ⟨claimed, deleted, next⟩
        | _ => .error .unexpected

/-! ### What is right -/

/-- The operations of a stream's row, with what they take besides its ref. -/
inductive Destination.Op where
  | trim (strategy : String) (maxLen : Int) (minID : String) (approx : Bool)
  | deleteEntries (ids : List String)
  | addEntry (fields : List StreamField) (id : String) (count : Int)
  | removeDestination
  | queryMessages (lower : String → String) (messageID : String)
      (startTime endTime maxResults : Int) (filters : ExtTreeMap String String compare)
  | messageByID (messageID : String)

/-- The operations of a group's row. -/
inductive Subscription.Op where
  | subscriptionDetail
  | removeSubscription
  | setSubscriptionPosition (position : String)
  | ackEntries (ids : List String)
  | claimEntries (consumer : String) (ids : List String) (minIdleMs : Int)
  | autoClaim (consumer : String) (minIdleMs : Int) (start : String) (count : Int)

/-- Only whether it succeeds. -/
def outcome {α : Type} (call : Call α) : Call Unit := call.map fun result => result.map fun _ => ()

def Destination.Op.call (ref : DestinationRef) : Destination.Op → Call Unit
  | .trim strategy maxLen minID approx =>
    outcome (Redisstream.trim ⟨ref, strategy, maxLen, minID, approx⟩)
  | .deleteEntries ids => outcome (Redisstream.deleteEntries ref ids)
  | .addEntry fields id count => outcome (Redisstream.addEntry ⟨ref, fields, id, count⟩)
  | .removeDestination => Redisstream.removeDestination ref
  | .queryMessages lower messageID startTime endTime maxResults filters =>
    outcome (Redisstream.queryMessages lower
      ⟨ref.name, messageID, startTime, endTime, maxResults, filters⟩)
  | .messageByID messageID => outcome (Redisstream.messageByID ref.name messageID)

def Subscription.Op.call (ref : SubscriptionRef) : Subscription.Op → Call Unit
  | .subscriptionDetail => outcome (Redisstream.subscriptionDetail ref)
  | .removeSubscription => Redisstream.removeSubscription ref
  | .setSubscriptionPosition position => Redisstream.setSubscriptionPosition ⟨ref, position⟩
  | .ackEntries ids => outcome (Redisstream.ackEntries ref ids)
  | .claimEntries consumer ids minIdleMs =>
    outcome (Redisstream.claimEntries ⟨ref, consumer, ids, minIdleMs⟩)
  | .autoClaim consumer minIdleMs start count =>
    outcome (Redisstream.autoClaim ⟨ref, consumer, minIdleMs, start, count⟩)

/-- The operation sends its commands for this key and, where they name one, this group, or it sends
nothing and returns an error. -/
structure Exact {α : Type} (key : String) (group : Option String) (call : Call α) : Prop where
  commands : call.All fun command =>
    command.key = key ∧ ∀ name ∈ command.group, some name = group
  silent : call.Sends ∨ ∃ err, call = .done (.error err)

/-- Every operation of every row is for the row. -/
structure Keyspace.PageExact (ks : Keyspace) : Prop where
  destinations : ∀ rows, ks.listDestinations = .ok rows → ∀ row ∈ rows, ∀ op : Destination.Op,
    Exact row.ref.name none (op.call row.ref)
  subscriptions : ∀ rows, ks.listSubscriptions = .ok rows → ∀ row ∈ rows, ∀ op : Subscription.Op,
    Exact row.ref.nameSpace (some row.ref.name) (op.call row.ref)

/-! ### What the operations send -/

section

variable {α β : Type} {key : String} {group : Option String}

theorem exact_error (key : String) (group : Option String) (err : OpError) :
    Exact key group (.done (.error err) : Call α) := ⟨trivial, Or.inr ⟨err, rfl⟩⟩

theorem exact_once {command : Command} (hkey : command.key = key) (hgroup : command.group = group)
    (read : Reply → Except OpError α) : Exact key group (once command read) := by
  subst hkey hgroup
  refine ⟨⟨⟨rfl, fun _ h => h.symm⟩, fun answer => ?_⟩, Or.inl trivial⟩
  cases answer <;> trivial

/-- A command that names no group is right for any. -/
theorem exact_keyOnly {command : Command} (hkey : command.key = key) (hgroup : command.group = none)
    (read : Reply → Except OpError α) : Exact key group (once command read) := by
  subst hkey
  refine ⟨⟨⟨rfl, ?_⟩, fun answer => ?_⟩, Or.inl trivial⟩
  · rw [hgroup]
    exact nofun
  · cases answer <;> trivial

/-- What becomes of the result changes nothing about the commands. -/
theorem exact_map {call : Call α} (h : Exact key group call) (f : α → β) :
    Exact key group (call.map fun result => result.map f) := by
  refine ⟨(Program.all_map _ _).mpr h.commands, ?_⟩
  rcases h.silent with hsends | ⟨err, rfl⟩
  · exact Or.inl ((Program.sends_map _ _).mpr hsends)
  · exact Or.inr ⟨err, rfl⟩

theorem exact_outcome {call : Call α} (h : Exact key group call) : Exact key group (outcome call) :=
  exact_map h _

end

theorem trim_exact (request : TrimRequest) :
    Exact (trimSpace request.ref.name) none (trim request) := by
  unfold trim
  dsimp only
  split_ifs
  · exact exact_error ..
  · exact exact_error ..
  · refine exact_once ?_ ?_ _ <;> rfl
  · exact exact_error ..
  · refine exact_once ?_ ?_ _ <;> rfl
  · exact exact_error ..

theorem deleteEntries_exact (ref : DestinationRef) (ids : List String) :
    Exact (trimSpace ref.name) none (deleteEntries ref ids) := by
  unfold deleteEntries
  dsimp only
  split_ifs
  · exact exact_error ..
  · exact exact_error ..
  · refine exact_once ?_ ?_ _ <;> rfl

theorem addCopies_all {P : Command → Prop} {command : Command} (h : P command) (n : Nat)
    (ids : List String) : (addCopies command n ids).All P := by
  induction n generalizing ids with
  | zero => trivial
  | succ n ih =>
    refine ⟨h, fun answer => ?_⟩
    dsimp only
    split
    · trivial
    · exact ih _
    · trivial

/-- Every copy is written to the stream. -/
theorem addCopies_exact (stream id : String) (values : List (String × String)) {n : Nat}
    (h : 0 < n) : Exact stream none (addCopies (.xadd stream id values) n []) := by
  refine ⟨addCopies_all ⟨rfl, nofun⟩ n [], ?_⟩
  cases n with
  | zero => cases h
  | succ n => exact Or.inl trivial

theorem addEntry_exact (request : StreamAddRequest) :
    Exact (trimSpace request.ref.name) none (addEntry request) := by
  have hcount : 0 < (if request.count ≤ 0 then 1 else request.count).toNat := by
    split <;> omega
  unfold addEntry
  dsimp only
  generalize (if request.count ≤ 0 then 1 else request.count) = count at hcount ⊢
  split
  · exact exact_error ..
  split
  · exact exact_error ..
  split
  · exact exact_error ..
  split
  · exact addCopies_exact _ _ _ hcount
  split
  · exact exact_error ..
  split
  · exact exact_error ..
  · exact addCopies_exact _ _ _ hcount

theorem messageByID_exact (topic messageID : String) :
    Exact (trimSpace topic) none (messageByID topic messageID) := by
  unfold messageByID
  dsimp only
  split_ifs
  · exact exact_error ..
  · exact exact_error ..
  · refine exact_once ?_ ?_ _ <;> rfl

theorem queryMessages_exact (lower : String → String) (params : MessageQueryParams) :
    Exact (trimSpace params.topic) none (queryMessages lower params) := by
  unfold queryMessages
  dsimp only
  split
  · exact exact_error ..
  split
  · have h := messageByID_exact (trimSpace params.topic) (trimSpace params.messageID)
    rw [trimSpace_trimSpace] at h
    exact exact_map h _
  · refine exact_once ?_ ?_ _ <;> rfl

theorem removeDestination_exact (ref : DestinationRef) :
    Exact ref.name none (removeDestination ref) := by
  unfold removeDestination
  refine exact_once ?_ ?_ _ <;> rfl

/-- **Every operation but the removal is for the trimmed name of its row.** -/
theorem Destination.Op.call_exact (ref : DestinationRef) {op : Destination.Op}
    (h : op ≠ .removeDestination) : Exact (trimSpace ref.name) none (op.call ref) := by
  cases op with
  | trim strategy maxLen minID approx =>
    exact exact_outcome (trim_exact ⟨ref, strategy, maxLen, minID, approx⟩)
  | deleteEntries ids => exact exact_outcome (deleteEntries_exact ref ids)
  | addEntry fields id count => exact exact_outcome (addEntry_exact ⟨ref, fields, id, count⟩)
  | removeDestination => exact absurd rfl h
  | queryMessages lower messageID startTime endTime maxResults filters =>
    exact exact_outcome (queryMessages_exact lower
      ⟨ref.name, messageID, startTime, endTime, maxResults, filters⟩)
  | messageByID messageID => exact exact_outcome (messageByID_exact ref.name messageID)

/-- With no name left nothing is sent. -/
theorem Destination.Op.call_blank {ref : DestinationRef} (hblank : trimSpace ref.name = "")
    {op : Destination.Op} (h : op ≠ .removeDestination) :
    ∃ err, op.call ref = .done (.error err) := by
  cases op with
  | trim strategy maxLen minID approx =>
    exact ⟨.noStream, by simp [Destination.Op.call, Redisstream.trim, hblank, outcome]; rfl⟩
  | deleteEntries ids =>
    exact ⟨.noStream,
      by simp [Destination.Op.call, Redisstream.deleteEntries, hblank, outcome]; rfl⟩
  | addEntry fields id count =>
    exact ⟨.noStream, by simp [Destination.Op.call, Redisstream.addEntry, hblank, outcome]; rfl⟩
  | removeDestination => exact absurd rfl h
  | queryMessages lower messageID startTime endTime maxResults filters =>
    exact ⟨.noStream,
      by simp [Destination.Op.call, Redisstream.queryMessages, hblank, outcome]; rfl⟩
  | messageByID messageID =>
    exact ⟨.noStreamOrID,
      by simp [Destination.Op.call, Redisstream.messageByID, hblank, outcome]; rfl⟩

/-- **A stream's row is acted on exactly** if trimming keeps its name, or leaves nothing of it. -/
theorem destination_exact_iff (ref : DestinationRef) :
    (∀ op : Destination.Op, Exact ref.name none (op.call ref)) ↔
      trimSpace ref.name = ref.name ∨ trimSpace ref.name = "" := by
  constructor
  · intro h
    by_contra hcond
    push Not at hcond
    have hsent := (h (.trim "maxlen" 0 "" false)).commands
    have hcall : Destination.Op.call ref (.trim "maxlen" 0 "" false) =
        outcome (once (.xtrimMaxLen (trimSpace ref.name) false 0) readCount) := by
      simp [Destination.Op.call, Redisstream.trim, hcond.2]
    rw [hcall] at hsent
    exact hcond.1 (Program.All.first hsent).1
  · intro h op
    by_cases hop : op = .removeDestination
    · subst hop
      exact removeDestination_exact ref
    rcases h with hsame | hblank
    · have := Destination.Op.call_exact ref hop
      rwa [hsame] at this
    · obtain ⟨err, herr⟩ := Destination.Op.call_blank hblank hop
      rw [herr]
      exact exact_error ..

/-! ### Operations on a group -/

/-- With a name missing nothing is sent; else the operation is for the trimmed names. -/
theorem withGroup_exact {α : Type} (ref : SubscriptionRef) {call : String → String → Call α}
    (h : ∀ stream group, Exact stream (some group) (call stream group)) :
    Exact (trimSpace ref.nameSpace) (some (trimSpace ref.name)) (withGroup ref call) := by
  unfold withGroup groupRef
  dsimp only
  split_ifs
  · exact exact_error ..
  · exact exact_error ..
  · exact h _ _

theorem subscriptionDetail_exact (ref : SubscriptionRef) :
    Exact (trimSpace ref.nameSpace) (some (trimSpace ref.name)) (subscriptionDetail ref) := by
  refine withGroup_exact ref fun stream group => ?_
  refine exact_keyOnly ?_ ?_ _ <;> rfl

theorem removeSubscription_exact (ref : SubscriptionRef) :
    Exact (trimSpace ref.nameSpace) (some (trimSpace ref.name)) (removeSubscription ref) := by
  refine withGroup_exact ref fun stream group => ?_
  refine exact_once ?_ ?_ _ <;> rfl

theorem setSubscriptionPosition_exact (request : PositionRequest) :
    Exact (trimSpace request.ref.nameSpace) (some (trimSpace request.ref.name))
      (setSubscriptionPosition request) := by
  refine withGroup_exact request.ref fun stream group => ?_
  dsimp only
  split_ifs
  · exact exact_error ..
  · exact exact_error ..
  · refine exact_once ?_ ?_ _ <;> rfl

theorem ackEntries_exact (ref : SubscriptionRef) (ids : List String) :
    Exact (trimSpace ref.nameSpace) (some (trimSpace ref.name)) (ackEntries ref ids) := by
  refine withGroup_exact ref fun stream group => ?_
  dsimp only
  split_ifs
  · exact exact_error ..
  · refine exact_once ?_ ?_ _ <;> rfl

theorem claimEntries_exact (request : ClaimRequest) :
    Exact (trimSpace request.ref.nameSpace) (some (trimSpace request.ref.name))
      (claimEntries request) := by
  refine withGroup_exact request.ref fun stream group => ?_
  dsimp only
  split_ifs
  · exact exact_error ..
  · exact exact_error ..
  · refine exact_once ?_ ?_ _ <;> rfl

theorem autoClaim_exact (request : AutoClaimRequest) :
    Exact (trimSpace request.ref.nameSpace) (some (trimSpace request.ref.name))
      (autoClaim request) := by
  refine withGroup_exact request.ref fun stream group => ?_
  dsimp only
  split
  · exact exact_error ..
  · refine exact_once ?_ ?_ _ <;> rfl

/-- **Every operation of a group is for the trimmed names of its row.** -/
theorem Subscription.Op.call_exact (ref : SubscriptionRef) (op : Subscription.Op) :
    Exact (trimSpace ref.nameSpace) (some (trimSpace ref.name)) (op.call ref) := by
  cases op with
  | subscriptionDetail => exact exact_outcome (subscriptionDetail_exact ref)
  | removeSubscription => exact removeSubscription_exact ref
  | setSubscriptionPosition position => exact setSubscriptionPosition_exact ⟨ref, position⟩
  | ackEntries ids => exact exact_outcome (ackEntries_exact ref ids)
  | claimEntries consumer ids minIdleMs =>
    exact exact_outcome (claimEntries_exact ⟨ref, consumer, ids, minIdleMs⟩)
  | autoClaim consumer minIdleMs start count =>
    exact exact_outcome (autoClaim_exact ⟨ref, consumer, minIdleMs, start, count⟩)

/-- With a name missing every operation says which. -/
theorem Subscription.Op.call_blank {ref : SubscriptionRef} {err : OpError}
    (hblank : groupRef ref = .error err) (op : Subscription.Op) :
    op.call ref = .done (.error err) := by
  have hwith {α : Type} (call : String → String → Call α) :
      withGroup ref call = .done (.error err) := by simp only [withGroup, hblank]
  cases op with
  | subscriptionDetail => exact congrArg outcome (hwith _)
  | removeSubscription => exact hwith _
  | setSubscriptionPosition position => exact hwith _
  | ackEntries ids => exact congrArg outcome (hwith _)
  | claimEntries consumer ids minIdleMs => exact congrArg outcome (hwith _)
  | autoClaim consumer minIdleMs start count => exact congrArg outcome (hwith _)

theorem groupRef_of_blank {ref : SubscriptionRef}
    (h : trimSpace ref.nameSpace = "" ∨ trimSpace ref.name = "") :
    ∃ err, groupRef ref = .error err := by
  unfold groupRef
  dsimp only
  split_ifs with hstream hgroup
  · exact ⟨_, rfl⟩
  · exact ⟨_, rfl⟩
  · exact absurd h (not_or.mpr ⟨hstream, hgroup⟩)

/-- **A group's row is acted on exactly** if trimming keeps both its names, or leaves nothing of
one. -/
theorem subscription_exact_iff (ref : SubscriptionRef) :
    (∀ op : Subscription.Op, Exact ref.nameSpace (some ref.name) (op.call ref)) ↔
      trimSpace ref.nameSpace = ref.nameSpace ∧ trimSpace ref.name = ref.name ∨
        trimSpace ref.nameSpace = "" ∨ trimSpace ref.name = "" := by
  constructor
  · intro h
    by_cases hblank : trimSpace ref.nameSpace = "" ∨ trimSpace ref.name = ""
    · exact Or.inr hblank
    have href : groupRef ref = .ok (trimSpace ref.nameSpace, trimSpace ref.name) := by
      simp [groupRef, not_or.mp hblank]
    have hsent := (h .removeSubscription).commands
    simp only [Subscription.Op.call, removeSubscription, withGroup, href] at hsent
    obtain ⟨hkey, hgroup⟩ := Program.All.first hsent
    exact Or.inl ⟨hkey, Option.some.inj (hgroup _ rfl)⟩
  · rintro (⟨hstream, hgroup⟩ | hblank) op
    · have := Subscription.Op.call_exact ref op
      rwa [hstream, hgroup] at this
    · obtain ⟨err, herr⟩ := groupRef_of_blank hblank
      rw [Subscription.Op.call_blank herr]
      exact exact_error ..

/-! ### The pages -/

/-- **The pages act on the rows they show** exactly if trimming keeps the names of every row, or
leaves a row nothing to act on. -/
theorem Keyspace.page_exact_iff (ks : Keyspace) :
    ks.PageExact ↔
      (∀ rows, ks.listDestinations = .ok rows → ∀ row ∈ rows,
        trimSpace row.ref.name = row.ref.name ∨ trimSpace row.ref.name = "") ∧
      ∀ rows, ks.listSubscriptions = .ok rows → ∀ row ∈ rows,
        trimSpace row.ref.nameSpace = row.ref.nameSpace ∧ trimSpace row.ref.name = row.ref.name ∨
          trimSpace row.ref.nameSpace = "" ∨ trimSpace row.ref.name = "" := by
  constructor
  · intro h
    refine ⟨fun rows hrows row hrow => ?_, fun rows hrows row hrow => ?_⟩
    · exact (destination_exact_iff row.ref).mp (h.destinations rows hrows row hrow)
    · exact (subscription_exact_iff row.ref).mp (h.subscriptions rows hrows row hrow)
  · rintro ⟨hstreams, hgroups⟩
    refine ⟨fun rows hrows row hrow => ?_, fun rows hrows row hrow => ?_⟩
    · exact (destination_exact_iff row.ref).mpr (hstreams rows hrows row hrow)
    · exact (subscription_exact_iff row.ref).mpr (hgroups rows hrows row hrow)

def noInfo : XInfoStream := ⟨1, 0, "1-0", 1, 1, 2, "1-0", "1-0", "0-0"⟩

/-- A server that holds the streams "orders" and " orders". -/
def spacedKeys : Keyspace where
  cluster := false
  nodes := [[.ok [" orders", "orders"]]]
  info := fun _ => .ok noInfo
  memory := fun _ => .ok 64
  groups := fun _ => some []

/-- The row of " orders" trims the stream "orders". -/
theorem spaced_trims_other : ¬ spacedKeys.PageExact := by
  intro h
  have hsort : [" orders", "orders"].mergeSort = [" orders", "orders"] :=
    List.mergeSort_of_pairwise (by decide)
  have hkeys : spacedKeys.scanStreams = .ok [" orders", "orders"] := rfl
  have hlist : ∃ first rest, spacedKeys.listDestinations = .ok (first :: rest) ∧
      first.ref = ⟨"", " orders"⟩ := by
    simp only [Keyspace.listDestinations, hkeys, hsort]
    exact ⟨_, _, rfl, rfl⟩
  obtain ⟨first, rest, hlist, href⟩ := hlist
  have hsent :=
    (h.destinations _ hlist first List.mem_cons_self (.trim "maxlen" 0 "" false)).commands
  rw [href] at hsent
  have hkey : (Command.xtrimMaxLen (trimSpace " orders") false 0).key = " orders" := hsent.1.1
  exact absurd hkey (by decide)

end MqStudio.Redisstream
